import CertWatch.Proofs.Table
import CertWatch.Watch.Bundles

/-!
# Candidates of bundles

A key belongs to a bundle in a role, or nowhere. What the table of candidates has for a bundle are the
keys that belong there with their roles, in the order of the keys; bundles to which no key belongs are
not in it.
-/

namespace CertWatch.BundleConfig
set_option autoImplicit false

variable {c : BundleConfig} {scope : Scope} {key role : String} {k : BundleKey}

theorem place_eq_some_iff : c.place scope key = some (k, role) ↔
    KeyPath.extension ⟨scope.name, key⟩ = some role ∧ role ∈ c.roles ∧
      BundleKey.ofPath? ⟨scope.name, key⟩ c.rootFolder = some k := by
  constructor
  · intro placed
    obtain ⟨ext, extension, placed⟩ := Option.bind_eq_some_iff.1 placed
    split at placed
    case isTrue listed =>
      obtain ⟨bundle, belongs, same⟩ := Option.bind_eq_some_iff.1 placed
      cases same
      exact ⟨extension, listed, belongs⟩
    case isFalse => cases placed
  · rintro ⟨extension, listed, belongs⟩
    refine Option.bind_eq_some_iff.2 ⟨role, extension, ?_⟩
    rw [if_pos listed]
    exact Option.bind_eq_some_iff.2 ⟨k, belongs, rfl⟩

/-- The keys that belong to a bundle, with their roles. -/
def members (c : BundleConfig) (scope : Scope) (keys : List String) (k : BundleKey) :
    List (String × String) :=
  keys.filterMap fun key => match c.place scope key with
    | some (bundle, role) => if bundle = k then some (role, key) else none
    | none => none

theorem members_cons (c : BundleConfig) (scope : Scope) (key : String) (keys : List String)
    (k : BundleKey) : c.members scope (key :: keys) k =
      (match c.place scope key with
        | some (bundle, role) => if bundle = k then [(role, key)] else []
        | none => []) ++ c.members scope keys k := by
  unfold members
  rw [List.filterMap_cons]
  cases c.place scope key with
  | none => rfl
  | some at_ =>
    dsimp only
    by_cases here : at_.1 = k
    · rw [if_pos here, if_pos here]
      rfl
    · rw [if_neg here, if_neg here]
      rfl

theorem mem_members_iff {keys : List String} : (role, key) ∈ c.members scope keys k ↔
    key ∈ keys ∧ c.place scope key = some (k, role) := by
  unfold members
  rw [List.mem_filterMap]
  constructor
  · rintro ⟨other, listed, found⟩
    cases placed : c.place scope other with
    | none =>
      rw [placed] at found
      cases found
    | some at_ =>
      rw [placed] at found
      dsimp only at found
      split at found
      case isTrue here =>
        cases found
        exact ⟨listed, here ▸ placed⟩
      case isFalse => cases found
  · rintro ⟨listed, placed⟩
    exact ⟨key, listed, by simp [placed]⟩

/-- The members of a bundle in one role are the keys that belong there. -/
theorem keys_of_role (c : BundleConfig) (scope : Scope) (keys : List String) (k : BundleKey)
    (role : String) : ((c.members scope keys k).filter fun m => m.1 = role).map Prod.snd =
      keys.filter fun key => c.place scope key = some (k, role) := by
  induction keys with
  | nil => rfl
  | cons key rest ih =>
    rw [members_cons, List.filter_append, List.map_append, ih, List.filter_cons]
    cases c.place scope key with
    | none => simp
    | some at_ =>
      obtain ⟨bundle, ext⟩ := at_
      by_cases here : bundle = k <;> by_cases same : ext = role <;> simp [here, same]

/-- Looking up a bundle after the candidates among some keys were added to a table. -/
theorem get?_foldl_candidates (keys : List String) (t : Table BundleKey (List (String × String))) :
    (keys.foldl (fun t key => match c.place scope key with
      | some (bundle, role) => t.insert bundle ((t.get? bundle).getD [] ++ [(role, key)])
      | none => t) t).get? k =
      if c.members scope keys k = [] then t.get? k
      else some ((t.get? k).getD [] ++ c.members scope keys k) := by
  induction keys generalizing t with
  | nil => rfl
  | cons key rest ih =>
    rw [List.foldl_cons, ih, members_cons]
    cases c.place scope key with
    | none => simp
    | some at_ =>
      obtain ⟨bundle, role⟩ := at_
      by_cases here : bundle = k
      · subst here
        by_cases none : c.members scope rest bundle = [] <;> simp [none]
      · simp [Table.get?_insert, here, Ne.symm here]

theorem get?_candidates (c : BundleConfig) (scope : Scope) (keys : List String) (k : BundleKey) :
    (c.candidates scope keys).get? k =
      if c.members scope keys k = [] then none else some (c.members scope keys k) := by
  have looked := @get?_foldl_candidates c scope k keys .empty
  rw [Table.get?_empty, Option.getD_none, List.nil_append] at looked
  exact looked

/-- Keys that belong nowhere add no candidates. -/
theorem candidates_filter (c : BundleConfig) (scope : Scope) (keys : List String) :
    c.candidates scope (keys.filter fun key => (c.place scope key).isSome) = c.candidates scope keys := by
  unfold candidates
  rw [List.foldl_filter]
  congr 1
  funext t key
  cases c.place scope key <;> rfl

theorem mem_candidates_iff {keys : List String} {members : List (String × String)} :
    (k, members) ∈ (c.candidates scope keys).entries ↔
      members = c.members scope keys k ∧ members ≠ [] := by
  rw [Table.mem_entries_iff, get?_candidates]
  split
  case isTrue none => simp [none]
  case isFalse some =>
    rw [Option.some.injEq]
    constructor
    · rintro rfl
      exact ⟨rfl, some⟩
    · rintro ⟨rfl, -⟩
      rfl

/-- A candidate is one of the keys, and belongs to its bundle in its role. -/
theorem placed_of_mem_candidates {keys : List String} {e : BundleKey × List (String × String)}
    (found : e ∈ (c.candidates scope keys).entries) {m : String × String} (among : m ∈ e.2) :
    m.2 ∈ keys ∧ c.place scope m.2 = some (e.1, m.1) := by
  rw [(mem_candidates_iff.1 found).1] at among
  exact mem_members_iff.1 among

end CertWatch.BundleConfig
