import CertWatch.Changes
import CertWatch.Proofs.Table

/-!
# Replaying changes

Changes are applied to a snapshot one by one, each under its own condition: what is added was absent,
what is updated was there with another digest, what is removed was there. The changes between a
snapshot and a listing with distinct keys meet all of these conditions, and applying them gives the
snapshot of the listing.
-/

namespace CertWatch.ChangeSet
set_option autoImplicit false

/-- The keys that changes name, in order. -/
def names {τ κ : Type} (key : τ → κ) (c : ChangeSet τ κ) : List κ :=
  c.added.map key ++ c.updated.map key ++ c.removed

variable {τ κ : Type} [LT κ] [DecidableEq κ]

/-! ## The changes between a snapshot and a listing -/

/-- The changes from a snapshot to a listing of items. -/
def changes (key : τ → κ) (digest : τ → Digest) (previous : Table κ Digest) (current : List τ) :
    ChangeSet τ κ :=
  .between previous digest (current.map fun a => (key a, a))

section Between

variable {key : τ → κ} {digest : τ → Digest} {previous : Table κ Digest} {current : List τ}

theorem mem_added_iff {a : τ} :
    a ∈ (changes key digest previous current).added ↔
      a ∈ current ∧ previous.get? (key a) = none := by
  rw [Table.get?_eq_none_iff, ← Table.contains_iff]
  simp [changes, between, addedTo]

theorem mem_updated_iff {a : τ} :
    a ∈ (changes key digest previous current).updated ↔
      a ∈ current ∧ ∃ d, previous.get? (key a) = some d ∧ d ≠ digest a := by
  simp only [changes, between, updatedIn, List.mem_map, List.mem_filter]
  constructor
  · rintro ⟨_, ⟨⟨b, hb, rfl⟩, differs⟩, rfl⟩
    refine ⟨hb, ?_⟩
    cases h : previous.get? (key b) with
    | none => simp [h] at differs
    | some d => exact ⟨d, rfl, by simpa [h] using differs⟩
  · rintro ⟨ha, d, h, differs⟩
    exact ⟨_, ⟨⟨a, ha, rfl⟩, by simpa [h] using differs⟩, rfl⟩

theorem mem_removed_iff {k : κ} :
    k ∈ (changes key digest previous current).removed ↔
      k ∈ previous.keys ∧ k ∉ current.map key := by
  simp [changes, between, removedFrom]

omit [LT κ] [DecidableEq κ] in
/-- What is picked from a listing by a test is what passes the test. -/
theorem picked_eq (pick : κ × τ → Bool) :
    ((current.map fun a => (key a, a)).filter pick).map Prod.snd =
      current.filter fun a => pick (key a, a) := by
  rw [List.filter_map, List.map_map]
  simp [Function.comp_def]

omit [LT κ] [DecidableEq κ] in
/-- What is picked from a listing stands in its order. -/
theorem sublist_picked (pick : κ × τ → Bool) :
    (((current.map fun a => (key a, a)).filter pick).map Prod.snd).Sublist current := by
  rw [picked_eq]
  exact List.filter_sublist

theorem sublist_added : (changes key digest previous current).added.Sublist current :=
  sublist_picked _

theorem sublist_updated : (changes key digest previous current).updated.Sublist current :=
  sublist_picked _

omit [LT κ] in
/-- In a listing with distinct keys, an item is the one that is found under its key. -/
theorem find?_key (distinct : (current.map key).Nodup) {a : τ} (h : a ∈ current) :
    current.find? (fun b => key b = key a) = some a := by
  have keys : ((current.map fun a => (key a, a)).map Prod.fst).Nodup := by
    simpa [Function.comp_def] using distinct
  have found := Table.find?_of_nodup keys (List.mem_map_of_mem (f := fun a => (key a, a)) h)
  simpa [List.find?_map, Function.comp_def] using found

omit [LT κ] in
theorem find?_key_eq_none {as : List τ} {k : κ} (h : k ∉ as.map key) :
    as.find? (fun b => key b = k) = none := by
  rw [List.find?_eq_none]
  intro b hb same
  exact h (of_decide_eq_true same ▸ List.mem_map_of_mem hb)

omit [LT κ] in
/-- An item that a part of the listing lacks is not found there, and neither is another one. -/
theorem find?_key_eq_none_of_sublist (distinct : (current.map key).Nodup) {part : List τ}
    (sub : part.Sublist current) {a : τ} (h : a ∈ current) (lacks : a ∉ part) :
    part.find? (fun b => key b = key a) = none := by
  apply find?_key_eq_none
  intro named
  obtain ⟨b, hb, same⟩ := List.mem_map.1 named
  have found := find?_key distinct (sub.subset hb)
  rw [same, find?_key distinct h] at found
  exact lacks (Option.some.inj found ▸ hb)

variable [LE κ] [Std.LawfulOrderLT κ]

theorem nodup_removed : (changes key digest previous current).removed.Nodup :=
  previous.nodup_keys.filter _

/-- Changes to a listing with distinct keys name no key twice. -/
theorem nodup_names (distinct : (current.map key).Nodup) :
    (names key (changes key digest previous current)).Nodup := by
  rw [names, List.nodup_append, List.nodup_append]
  refine ⟨⟨distinct.sublist (sublist_added.map _), distinct.sublist (sublist_updated.map _), ?_⟩,
    nodup_removed, ?_⟩
  · rintro _ hk _ hk' rfl
    obtain ⟨a, ha, rfl⟩ := List.mem_map.1 hk
    obtain ⟨b, hb, same⟩ := List.mem_map.1 hk'
    obtain ⟨-, d, there, -⟩ := mem_updated_iff.1 hb
    rw [same, (mem_added_iff.1 ha).2] at there
    cases there
  · rintro _ hk _ hk' rfl
    apply (mem_removed_iff.1 hk').2
    rcases List.mem_append.1 hk with hk | hk
    · exact (sublist_added.map key).subset hk
    · exact (sublist_updated.map key).subset hk

end Between

/-! ## Applying changes -/

/-- Removes a key, which must be there. -/
def remove? (t : Table κ Digest) (k : κ) : Option (Table κ Digest) :=
  if t.contains k then some (t.erase k) else none

theorem get?_foldl_erase (ks : List κ) (t : Table κ Digest) (k : κ) :
    (ks.foldl Table.erase t).get? k = if k ∈ ks then none else t.get? k := by
  induction ks generalizing t with
  | nil => simp
  | cons j rest ih =>
    rw [List.foldl_cons, ih, Table.get?_erase]
    by_cases h : k = j <;> by_cases h' : k ∈ rest <;> simp [h, h']

theorem foldlM_remove {ks : List κ} (distinct : ks.Nodup) {t : Table κ Digest}
    (present : ∀ k ∈ ks, k ∈ t.keys) : ks.foldlM remove? t = some (ks.foldl Table.erase t) := by
  induction ks generalizing t with
  | nil => rfl
  | cons k rest ih =>
    obtain ⟨new, distinct⟩ := List.nodup_cons.1 distinct
    have here : remove? t k = some (t.erase k) := by
      simp [remove?, Table.contains_iff.2 (present k List.mem_cons_self)]
    rw [List.foldlM_cons, here]
    apply ih distinct
    intro j hj
    have other : j ≠ k := fun e => new (e ▸ hj)
    rw [← Table.isSome_get?_iff, Table.get?_erase, if_neg other, Table.isSome_get?_iff]
    exact present j (List.mem_cons_of_mem _ hj)

variable [LE κ] [Std.IsLinearOrder κ] [Std.LawfulOrderLT κ] [DecidableLT κ]

section Apply

variable (key : τ → κ) (digest : τ → Digest)

/-- Sets the digest of an item under its key. -/
def set (t : Table κ Digest) (a : τ) : Table κ Digest := t.insert (key a) (digest a)

/-- Adds an item, whose key must be absent. -/
def add? (t : Table κ Digest) (a : τ) : Option (Table κ Digest) :=
  if t.contains (key a) then none else some (set key digest t a)

/-- Replaces an item, whose key must be there with another digest. -/
def update? (t : Table κ Digest) (a : τ) : Option (Table κ Digest) :=
  match t.get? (key a) with
  | some before => if before = digest a then none else some (set key digest t a)
  | none => none

/-- Applies changes to a snapshot; none if one of them does not fit. -/
def amended? (c : ChangeSet τ κ) (t : Table κ Digest) : Option (Table κ Digest) := do
  let t ← c.added.foldlM (add? key digest) t
  let t ← c.updated.foldlM (update? key digest) t
  c.removed.foldlM remove? t

/-- The snapshot of a listing. -/
def snapshot (current : List τ) : Table κ Digest :=
  .ofList (current.map fun a => (key a, digest a))

end Apply

variable {key : τ → κ} {digest : τ → Digest}

theorem get?_set (t : Table κ Digest) (a : τ) (k : κ) :
    (set key digest t a).get? k = if k = key a then some (digest a) else t.get? k :=
  t.get?_insert (key a) k (digest a)

theorem get?_foldl_set {as : List τ} (distinct : (as.map key).Nodup) (t : Table κ Digest) (k : κ) :
    (as.foldl (set key digest) t).get? k =
      ((as.find? fun a => key a = k).map digest).or (t.get? k) := by
  have entries : as.foldl (set key digest) t =
      (as.map fun a => (key a, digest a)).foldl (fun t e => t.insert e.1 e.2) t := by
    rw [List.foldl_map]; rfl
  have keys : ((as.map fun a => (key a, digest a)).map Prod.fst).Nodup := by
    simpa [Function.comp_def] using distinct
  rw [entries, Table.get?_foldl_insert keys, List.find?_map]
  simp [Function.comp_def]

theorem get?_snapshot {current : List τ} (distinct : (current.map key).Nodup) (k : κ) :
    (snapshot key digest current).get? k = (current.find? fun a => key a = k).map digest :=
  Table.get?_ofList_map distinct digest k

/-- Steps that set each item of a list, as long as nothing else happens to its key. -/
theorem foldlM_set {step : Table κ Digest → τ → Option (Table κ Digest)} {as : List τ}
    (distinct : (as.map key).Nodup) {t : Table κ Digest}
    (fits : ∀ a ∈ as, ∀ t' : Table κ Digest, t'.get? (key a) = t.get? (key a) →
      step t' a = some (set key digest t' a)) :
    as.foldlM step t = some (as.foldl (set key digest) t) := by
  induction as generalizing t with
  | nil => rfl
  | cons a rest ih =>
    obtain ⟨new, distinct⟩ := List.nodup_cons.1 distinct
    rw [List.foldlM_cons, fits a List.mem_cons_self t rfl]
    refine ih distinct fun b hb t' same => fits b (List.mem_cons_of_mem _ hb) t' ?_
    have other : key b ≠ key a := fun e => new (e ▸ List.mem_map_of_mem hb)
    rw [same, get?_set, if_neg other]

section Replay

variable {previous : Table κ Digest} {current : List τ}

omit [LE κ] [Std.IsLinearOrder κ] [Std.LawfulOrderLT κ] [DecidableLT κ] in
/-- What the changes and the snapshot before them say about a key is what the listing says. -/
theorem find?_changes (distinct : (current.map key).Nodup) (k : κ) :
    (if k ∈ (changes key digest previous current).removed then none
      else (((changes key digest previous current).updated.find? fun a => key a = k).map digest).or
        ((((changes key digest previous current).added.find? fun a => key a = k).map digest).or
          (previous.get? k))) =
      (current.find? fun a => key a = k).map digest := by
  generalize hc : changes key digest previous current = c
  have added : c.added.Sublist current := hc ▸ sublist_added
  have updated : c.updated.Sublist current := hc ▸ sublist_updated
  by_cases listed : k ∈ current.map key
  · obtain ⟨a, ha, rfl⟩ := List.mem_map.1 listed
    have stays : key a ∉ c.removed := fun h => (mem_removed_iff.1 (hc ▸ h)).2 listed
    rw [if_neg stays, find?_key distinct ha]
    cases there : previous.get? (key a) with
    | none =>
      have isNew : a ∈ c.added := hc ▸ mem_added_iff.2 ⟨ha, there⟩
      have notOld : a ∉ c.updated := fun h => by
        obtain ⟨-, d, found, -⟩ := mem_updated_iff.1 (hc ▸ h)
        rw [there] at found
        cases found
      rw [find?_key (distinct.sublist (added.map key)) isNew,
        find?_key_eq_none_of_sublist distinct updated ha notOld]
      rfl
    | some d =>
      have notNew : a ∉ c.added := fun h => by
        have absent := (mem_added_iff.1 (hc ▸ h)).2
        rw [there] at absent
        cases absent
      rw [find?_key_eq_none_of_sublist distinct added ha notNew]
      by_cases same : d = digest a
      · have notOld : a ∉ c.updated := fun h => by
          obtain ⟨-, d', found, differs⟩ := mem_updated_iff.1 (hc ▸ h)
          rw [there] at found
          exact differs (Option.some.inj found ▸ same)
        rw [find?_key_eq_none_of_sublist distinct updated ha notOld, same]
        rfl
      · have isOld : a ∈ c.updated := hc ▸ mem_updated_iff.2 ⟨ha, d, there, same⟩
        rw [find?_key (distinct.sublist (updated.map key)) isOld]
        rfl
  · rw [find?_key_eq_none listed, find?_key_eq_none fun h => listed ((added.map key).subset h),
      find?_key_eq_none fun h => listed ((updated.map key).subset h)]
    split
    case isTrue => rfl
    case isFalse stays =>
      have absent : k ∉ previous.keys := fun h => stays (hc ▸ mem_removed_iff.2 ⟨h, listed⟩)
      rw [Table.get?_eq_none_iff.2 absent]
      rfl

/-- **Replay.** The changes from a snapshot to a listing with distinct keys can be applied to the
snapshot, and give the snapshot of the listing. -/
theorem amended?_changes (distinct : (current.map key).Nodup) :
    amended? key digest (changes key digest previous current) previous =
      some (snapshot key digest current) := by
  generalize hc : changes key digest previous current = c
  have keysAdded : (c.added.map key).Nodup := hc ▸ distinct.sublist (sublist_added.map key)
  have keysUpdated : (c.updated.map key).Nodup := hc ▸ distinct.sublist (sublist_updated.map key)
  have addedOnly : ∀ a ∈ c.updated, key a ∉ c.added.map key := fun a ha h => by
    obtain ⟨b, hb, same⟩ := List.mem_map.1 h
    obtain ⟨-, d, there, -⟩ := mem_updated_iff.1 (hc ▸ ha)
    rw [← same, (mem_added_iff.1 (hc ▸ hb)).2] at there
    cases there
  have first : c.added.foldlM (add? key digest) previous =
      some (c.added.foldl (set key digest) previous) := by
    apply foldlM_set keysAdded
    intro a ha t same
    have absent : t.contains (key a) = false := by
      rw [Table.contains, same, (mem_added_iff.1 (hc ▸ ha)).2]; rfl
    simp [add?, absent]
  have second : c.updated.foldlM (update? key digest) (c.added.foldl (set key digest) previous) =
      some (c.updated.foldl (set key digest) (c.added.foldl (set key digest) previous)) := by
    apply foldlM_set keysUpdated
    intro a ha t same
    obtain ⟨-, d, there, differs⟩ := mem_updated_iff.1 (hc ▸ ha)
    rw [get?_foldl_set keysAdded, find?_key_eq_none (addedOnly a ha), there] at same
    have found : t.get? (key a) = some d := same
    simp [update?, found, differs]
  have third : c.removed.foldlM remove?
        (c.updated.foldl (set key digest) (c.added.foldl (set key digest) previous)) =
      some (c.removed.foldl Table.erase
        (c.updated.foldl (set key digest) (c.added.foldl (set key digest) previous))) := by
    refine foldlM_remove (hc ▸ nodup_removed) fun k hk => ?_
    obtain ⟨there, unlisted⟩ := mem_removed_iff.1 (hc ▸ hk)
    rw [← Table.isSome_get?_iff, get?_foldl_set keysUpdated, get?_foldl_set keysAdded]
    have := Table.isSome_get?_iff.2 there
    simp [Option.isSome_or, this]
  have result : c.removed.foldl Table.erase
        (c.updated.foldl (set key digest) (c.added.foldl (set key digest) previous)) =
      snapshot key digest current := by
    apply Table.ext_get?
    intro k
    rw [get?_foldl_erase, get?_foldl_set keysUpdated, get?_foldl_set keysAdded,
      get?_snapshot distinct, ← hc, find?_changes distinct]
  simp [amended?, first, second, third, result]

end Replay

end CertWatch.ChangeSet
