import Mathlib.Data.List.Nodup
import CertWatch.Table

/-!
# Look-ups of tables

A table is determined by its look-ups. Setting, removing and changing entries are described by what
they do to a look-up, and a table of a list whose keys are distinct looks every entry of the list up.
-/

namespace CertWatch.Table
set_option autoImplicit false

section Lookup

variable {κ ν : Type}

/-- Of a list with distinct keys, each entry is the one that is found at its key. -/
theorem find?_of_nodup [DecidableEq κ] {es : List (κ × ν)} (distinct : (es.map Prod.fst).Nodup) {e : κ × ν}
    (h : e ∈ es) : es.find? (fun d => d.1 = e.1) = some e := by
  cases found : es.find? (fun d => d.1 = e.1) with
  | none => simpa using List.find?_eq_none.1 found e h
  | some d =>
    have key : d.1 = e.1 := by simpa using List.find?_some found
    rw [List.inj_on_of_nodup_map distinct (List.mem_of_find?_eq_some found) h key]

variable [LT κ]

theorem ascending_keys (t : Table κ ν) : t.keys.Pairwise (· < ·) := List.pairwise_map.2 t.ascending

@[simp] theorem keys_map {μ : Type} (t : Table κ ν) (f : ν → μ) : (t.map f).keys = t.keys := by
  simp [keys, map, Function.comp_def]

variable [DecidableEq κ]

@[simp] theorem get?_empty (k : κ) : (empty : Table κ ν).get? k = none := rfl

theorem mem_entries_of_get? {t : Table κ ν} {k : κ} {v : ν} (h : t.get? k = some v) :
    (k, v) ∈ t.entries := by
  obtain ⟨e, he, rfl⟩ := Option.map_eq_some_iff.1 h
  have key : e.1 = k := by simpa using List.find?_some he
  subst key
  exact List.mem_of_find?_eq_some he

theorem isSome_get?_iff {t : Table κ ν} {k : κ} : (t.get? k).isSome = true ↔ k ∈ t.keys := by
  simp [get?, keys]

theorem contains_iff {t : Table κ ν} {k : κ} : t.contains k = true ↔ k ∈ t.keys := isSome_get?_iff

theorem get?_eq_none_iff {t : Table κ ν} {k : κ} : t.get? k = none ↔ k ∉ t.keys := by
  rw [← isSome_get?_iff]; cases t.get? k <;> simp

theorem get?_erase (t : Table κ ν) (k k' : κ) :
    (t.erase k).get? k' = if k' = k then none else t.get? k' := by
  simp only [get?, erase, List.find?_filter]
  split
  case isTrue h =>
    subst h
    simp
  case isFalse h =>
    congr 2
    funext e
    by_cases he : e.1 = k'
    · simp [he, h]
    · simp [he]

theorem get?_map {μ : Type} (t : Table κ ν) (f : ν → μ) (k : κ) :
    (t.map f).get? k = (t.get? k).map f := by
  simp [get?, map, List.find?_map, Function.comp_def]

end Lookup

section Order

variable {κ ν : Type} [LT κ] [LE κ] [Std.LawfulOrderLT κ]

theorem nodup_of_ascending {ks : List κ} (ascending : ks.Pairwise (· < ·)) : ks.Nodup := by
  apply ascending.imp
  intro a b before same
  subst same
  exact Std.lt_irrefl before

theorem nodup_keys (t : Table κ ν) : t.keys.Nodup := nodup_of_ascending t.ascending_keys

variable [DecidableEq κ]

theorem get?_of_mem_entries {t : Table κ ν} {k : κ} {v : ν} (h : (k, v) ∈ t.entries) :
    t.get? k = some v := by
  simp only [get?, find?_of_nodup t.nodup_keys h, Option.map_some]

theorem mem_entries_iff {t : Table κ ν} {k : κ} {v : ν} :
    (k, v) ∈ t.entries ↔ t.get? k = some v := ⟨get?_of_mem_entries, mem_entries_of_get?⟩

variable [Std.IsLinearOrder κ]

omit [DecidableEq κ] in
/-- Two ascending lists of the same keys are the same. -/
theorem eq_of_ascending {as bs : List κ} (h : as.Pairwise (· < ·)) (h' : bs.Pairwise (· < ·))
    (members : ∀ k, k ∈ as ↔ k ∈ bs) : as = bs := by
  have asymm : ∀ j k : κ, j < k → ¬ k < j := fun _ _ h h' => Std.lt_irrefl (Std.lt_trans h h')
  have perm : as.Perm bs :=
    (List.perm_ext_iff_of_nodup (nodup_of_ascending h) (nodup_of_ascending h')).2 members
  exact perm.eq_of_pairwise (fun j k _ _ h h' => absurd h' (asymm j k h)) h h'

/-- Tables with the same look-ups are the same. -/
theorem ext_get? {a b : Table κ ν} (h : ∀ k, a.get? k = b.get? k) : a = b := by
  have members : ∀ e, e ∈ a.entries ↔ e ∈ b.entries := fun ⟨k, v⟩ => by
    rw [mem_entries_iff, mem_entries_iff, h k]
  have irrefl : ∀ e : κ × ν, ¬ e.1 < e.1 := fun _ => Std.lt_irrefl
  have asymm : ∀ d e : κ × ν, d.1 < e.1 → ¬ e.1 < d.1 := fun _ _ h h' => irrefl _ (Std.lt_trans h h')
  have distinct : ∀ t : Table κ ν, t.entries.Nodup := fun t => t.nodup_keys.of_map _
  have perm : a.entries.Perm b.entries :=
    (List.perm_ext_iff_of_nodup (distinct a) (distinct b)).2 members
  cases a; cases b
  congr
  exact perm.eq_of_pairwise (fun d e _ _ h h' => absurd h' (asymm d e h)) ‹_› ‹_›

variable [DecidableLT κ]

theorem find?_put (k k' : κ) (v : ν) (es : List (κ × ν)) :
    (put k v es).find? (fun e => e.1 = k') =
      if k' = k then some (k, v) else es.find? fun e => e.1 = k' := by
  induction es with
  | nil => by_cases h : k' = k <;> simp [put, h, eq_comm]
  | cons e rest ih =>
    simp only [put]
    split
    case isTrue => by_cases h : k' = k <;> simp [h, eq_comm]
    case isFalse notBefore =>
      split
      case isTrue before =>
        rw [List.find?_cons, ih]
        by_cases h : k' = k
        · have other : e.1 ≠ k := fun same => Std.lt_irrefl (same ▸ before)
          simp [h, other]
        · simp [h, List.find?_cons]
      case isFalse notAfter =>
        have same : k = e.1 := eq_of_not_lt notBefore notAfter
        by_cases h : k' = k
        · simp [h]
        · simp [h, same ▸ h, eq_comm]

theorem get?_insert (t : Table κ ν) (k k' : κ) (v : ν) :
    (t.insert k v).get? k' = if k' = k then some v else t.get? k' := by
  simp only [get?, insert, find?_put]
  split <;> rfl

@[simp] theorem get?_insert_self (t : Table κ ν) (k : κ) (v : ν) :
    (t.insert k v).get? k = some v := by simp [get?_insert]

theorem get?_insert_of_ne (t : Table κ ν) {k k' : κ} (v : ν) (h : k' ≠ k) :
    (t.insert k v).get? k' = t.get? k' := by simp [get?_insert, h]

theorem get?_modify_self {t : Table κ ν} {k : κ} {v : ν} (there : t.get? k = some v) (f : ν → ν) :
    (t.modify k f).get? k = some (f v) := by
  rw [modify, there]
  exact get?_insert_self t k (f v)

/-- Entries that are set one after the other do not matter at a key that none of them has. -/
theorem get?_foldl_insert_of_not_mem {es : List (κ × ν)} {k : κ} (absent : k ∉ es.map Prod.fst)
    (t : Table κ ν) : (es.foldl (fun t e => t.insert e.1 e.2) t).get? k = t.get? k := by
  induction es generalizing t with
  | nil => rfl
  | cons e rest ih =>
    simp only [List.map_cons, List.mem_cons, not_or] at absent
    rw [List.foldl_cons, ih absent.2, get?_insert_of_ne t e.2 absent.1]

theorem get?_foldl_insert {es : List (κ × ν)} (distinct : (es.map Prod.fst).Nodup) (t : Table κ ν)
    (k : κ) : (es.foldl (fun t e => t.insert e.1 e.2) t).get? k =
      ((es.find? fun e => e.1 = k).map Prod.snd).or (t.get? k) := by
  induction es generalizing t with
  | nil => rfl
  | cons e rest ih =>
    simp only [List.map_cons, List.nodup_cons] at distinct
    rw [List.foldl_cons, List.find?_cons]
    by_cases h : e.1 = k
    · subst h
      rw [get?_foldl_insert_of_not_mem distinct.1]
      simp
    · rw [ih distinct.2, get?_insert_of_ne t e.2 (Ne.symm h)]
      simp [h]

/-- The table of a list with distinct keys looks up what is found in the list. -/
theorem get?_ofList {es : List (κ × ν)} (distinct : (es.map Prod.fst).Nodup) (k : κ) :
    (ofList es).get? k = (es.find? fun e => e.1 = k).map Prod.snd := by
  rw [ofList, get?_foldl_insert distinct]; simp

theorem get?_ofList_map {τ : Type} {key : τ → κ} {items : List τ} (distinct : (items.map key).Nodup)
    (f : τ → ν) (k : κ) : (ofList (items.map fun a => (key a, f a))).get? k =
      (items.find? fun a => key a = k).map f := by
  have keys : ((items.map fun a => (key a, f a)).map Prod.fst).Nodup := by
    simpa [Function.comp_def] using distinct
  rw [get?_ofList keys, List.find?_map]
  simp [Function.comp_def]

/-- Lists with distinct keys that give one table of their values also give one table of other values
that go with these. -/
theorem ofList_map_eq {τ μ : Type} {key : τ → κ} {as bs : List τ} (distinct : (as.map key).Nodup)
    (distinct' : (bs.map key).Nodup) {f : τ → ν} {g : τ → μ}
    (agree : ∀ a ∈ as, ∀ b ∈ bs, key a = key b → f a = f b → g a = g b)
    (same : ofList (as.map fun a => (key a, f a)) = ofList (bs.map fun b => (key b, f b))) :
    ofList (as.map fun a => (key a, g a)) = ofList (bs.map fun b => (key b, g b)) := by
  apply ext_get?
  intro k
  have found := congrArg (fun t : Table κ ν => t.get? k) same
  simp only [get?_ofList_map distinct, get?_ofList_map distinct'] at found ⊢
  cases here : as.find? fun a => key a = k with
  | none =>
    rw [here, Option.map_none] at found
    rw [Option.map_eq_none_iff.1 found.symm, Option.map_none]
  | some a =>
    rw [here, Option.map_some] at found
    obtain ⟨b, there, value⟩ := Option.map_eq_some_iff.1 found.symm
    have key_a : key a = k := by simpa using List.find?_some here
    have key_b : key b = k := by simpa using List.find?_some there
    rw [there, Option.map_some, Option.map_some, agree a (List.mem_of_find?_eq_some here) b
      (List.mem_of_find?_eq_some there) (key_a.trans key_b.symm) value.symm]

/-- The keys of a table of a list are those of the entries, also where keys are repeated. -/
theorem mem_keys_ofList {es : List (κ × ν)} {k : κ} :
    k ∈ (ofList es).keys ↔ k ∈ es.map Prod.fst := by
  have from_ : ∀ t : Table κ ν, k ∈ (es.foldl (fun t e => t.insert e.1 e.2) t).keys ↔
      k ∈ es.map Prod.fst ∨ k ∈ t.keys := by
    induction es with
    | nil => simp
    | cons e rest ih =>
      intro t
      rw [List.foldl_cons, ih, List.map_cons, List.mem_cons, ← isSome_get?_iff, ← isSome_get?_iff,
        get?_insert]
      by_cases h : k = e.1 <;> simp [h]
  rw [ofList, from_]
  simp [empty, keys]

end Order

end CertWatch.Table
