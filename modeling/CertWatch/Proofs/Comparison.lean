import CertWatch.Proofs.Watch.Snapshot

/-!
# Comparing a snapshot with a listing

What is added and what is updated are the parts of the listing with a property of their entries, and
what is removed are the keys that are missing from it. A listing whose keys are distinct is a snapshot
itself: deleting and inserting what changed leads to it, and nothing changed exactly if it is the same
snapshot.
-/

namespace CertWatch
set_option autoImplicit false

/-- A part of a list with just the entries that have a property, in their order and as often as they
occur: the longest part all of whose entries have it. -/
structure Picks {α : Type} (p : α → Prop) (whole part : List α) : Prop where
  sublist : part.Sublist whole
  holds : ∀ a ∈ part, p a
  longest : ∀ other : List α, other.Sublist whole → (∀ a ∈ other, p a) → other.Sublist part

/-- There is one such part. -/
theorem picks_iff {α : Type} {p : α → Bool} {whole part : List α} :
    Picks (fun a => p a = true) whole part ↔ part = whole.filter p := by
  constructor
  · rintro ⟨sublist, holds, longest⟩
    apply List.Sublist.antisymm
    · have kept := sublist.filter p
      rwa [List.filter_eq_self.2 holds] at kept
    · exact longest _ List.filter_sublist fun a ha => (List.mem_filter.1 ha).2
  · rintro rfl
    refine ⟨List.filter_sublist, fun a ha => (List.mem_filter.1 ha).2, fun other sublist holds => ?_⟩
    have kept := sublist.filter p
    rwa [List.filter_eq_self.2 holds] at kept

namespace ChangeSet

section Keys

variable {τ κ : Type} [LT κ] [DecidableEq κ]

/-- A snapshot has the keys of a listing, each with the digest of its item, and no others. -/
def Mirrors (t : Table κ Digest) (digest : τ → Digest) (current : List (κ × τ)) : Prop :=
  ∀ k d, t.get? k = some d ↔ ∃ a, (k, a) ∈ current ∧ digest a = d

variable [LE κ] [Std.IsLinearOrder κ] [Std.LawfulOrderLT κ] [DecidableLT κ]

/-- Deletes keys and then inserts items under their keys. -/
def patched (digest : τ → Digest) (t : Table κ Digest) (gone : List κ) (entries : List (κ × τ)) :
    Table κ Digest :=
  entries.foldl (fun t e => t.insert e.1 (digest e.2)) (gone.foldl Table.erase t)

end Keys

section Between

variable {τ κ : Type} [LT κ] [DecidableEq κ] {digest : τ → Digest} {previous : Table κ Digest}
  {current : List (κ × τ)}

/-- The changes to a listing, each with the key that it has there. -/
def entered (previous : Table κ Digest) (digest : τ → Digest) (current : List (κ × τ)) :
    ChangeSet (κ × τ) κ :=
  changes Prod.fst (fun e => digest e.2) previous current

theorem added_entered : (entered previous digest current).added =
    current.filter fun e => ¬ previous.contains e.1 :=
  picked_eq _

theorem updated_entered : (entered previous digest current).updated =
    current.filter fun e => match previous.get? e.1 with
      | some before => before ≠ digest e.2
      | none => false :=
  picked_eq _

theorem removed_entered : (entered previous digest current).removed = removedFrom previous current := by
  simp [entered, changes, between, removedFrom, Function.comp_def]

/-- The changes are those with their keys, without the keys. -/
theorem between_eq : between previous digest current =
    ⟨(entered previous digest current).added.map Prod.snd,
      (entered previous digest current).updated.map Prod.snd,
      (entered previous digest current).removed⟩ := by
  rw [added_entered, updated_entered, removed_entered]
  rfl

theorem isEmpty_between :
    (between previous digest current).isEmpty = (entered previous digest current).isEmpty := by
  rw [between_eq]
  simp [isEmpty]

theorem picks_added :
    Picks (fun e => previous.get? e.1 = none) current (entered previous digest current).added := by
  have same : (fun e : κ × τ => previous.get? e.1 = none) =
      fun e => (decide ¬ previous.contains e.1 = true) = true := by
    funext e
    simp [Table.contains]
  rw [same]
  exact picks_iff.2 added_entered

theorem picks_updated :
    Picks (fun e => ∃ before, previous.get? e.1 = some before ∧ before ≠ digest e.2) current
      (entered previous digest current).updated := by
  have same : (fun e : κ × τ => ∃ before, previous.get? e.1 = some before ∧ before ≠ digest e.2) =
      fun e => (match previous.get? e.1 with
        | some before => decide (before ≠ digest e.2)
        | none => false) = true := by
    funext e
    cases previous.get? e.1 <;> simp
  rw [same]
  exact picks_iff.2 updated_entered

theorem mem_removed_between {k : κ} : k ∈ (between previous digest current).removed ↔
    (∃ d, previous.get? k = some d) ∧ ∀ a, (k, a) ∉ current := by
  have missing : k ∈ (entered previous digest current).removed ↔
      k ∈ previous.keys ∧ k ∉ current.map Prod.fst := mem_removed_iff
  rw [← Table.isSome_get?_iff, Option.isSome_iff_exists] at missing
  rw [between_eq, missing]
  simp

theorem ascending_removed : (between previous digest current).removed.Pairwise (· < ·) :=
  previous.ascending_keys.filter _

variable [LE κ] [Std.IsLinearOrder κ] [Std.LawfulOrderLT κ]

/-- In whatever order the keys of a snapshot are gone through, sorting those that a listing lacks gives
one list. -/
theorem removed_of_order {order sorted : List κ} (all : order.Perm previous.keys)
    (lacking : sorted.Perm (order.filter (· ∉ current.map Prod.fst))) (ascending : sorted.Pairwise (· ≤ ·)) :
    sorted = (between previous digest current).removed := by
  have same : (between previous digest current).removed =
      previous.keys.filter (· ∉ current.map Prod.fst) := by
    apply List.filter_congr
    intro k _
    have listed : (current.any fun e => e.1 = k) = true ↔ k ∈ current.map Prod.fst := by simp
    rw [decide_eq_decide, listed]
  have perm : sorted.Perm (between previous digest current).removed := by
    rw [same]
    exact lacking.trans (all.filter _)
  have ascending' : (between previous digest current).removed.Pairwise (· ≤ ·) :=
    ascending_removed.imp fun before => Std.le_of_lt before
  exact perm.eq_of_pairwise (fun _ _ _ _ => Std.le_antisymm) ascending ascending'

end Between

section Patch

variable {τ κ : Type} [LT κ] [DecidableEq κ] [LE κ] [Std.IsLinearOrder κ] [Std.LawfulOrderLT κ]
  [DecidableLT κ] {digest : τ → Digest} {previous : Table κ Digest} {current : List (κ × τ)}

/-- The snapshot of a listing with distinct keys has its keys and digests. -/
theorem mirrors_iff (distinct : (current.map Prod.fst).Nodup) (t : Table κ Digest) :
    Mirrors t digest current ↔ t = snapshot Prod.fst (fun e => digest e.2) current := by
  have found : ∀ k d, (snapshot Prod.fst (fun e => digest e.2) current).get? k = some d ↔
      ∃ a, (k, a) ∈ current ∧ digest a = d := by
    intro k d
    rw [get?_snapshot distinct, Option.map_eq_some_iff]
    constructor
    · rintro ⟨⟨k', a⟩, there, rfl⟩
      obtain rfl : k' = k := by simpa using List.find?_some there
      exact ⟨a, List.mem_of_find?_eq_some there, rfl⟩
    · rintro ⟨a, there, rfl⟩
      exact ⟨(k, a), find?_key distinct there, rfl⟩
  constructor
  · intro mirrors
    apply Table.ext_get?
    intro k
    apply Option.ext
    intro d
    exact (mirrors k d).trans (found k d).symm
  · rintro rfl
    exact found

/-- Deleting what is removed and inserting what is added and updated gives the snapshot of the listing. -/
theorem patched_eq (distinct : (current.map Prod.fst).Nodup) :
    patched digest previous (entered previous digest current).removed
        ((entered previous digest current).added ++ (entered previous digest current).updated) =
      snapshot Prod.fst (fun e => digest e.2) current := by
  apply Table.ext_get?
  intro k
  generalize hc : entered previous digest current = c
  have changed : (if k ∈ c.removed then none
      else ((c.updated.find? fun e => e.1 = k).map fun e => digest e.2).or
        (((c.added.find? fun e => e.1 = k).map fun e => digest e.2).or (previous.get? k))) =
      (current.find? fun e => e.1 = k).map fun e => digest e.2 := by
    rw [← hc]
    exact find?_changes distinct k
  have added : c.added.Sublist current := hc ▸ sublist_added
  have updated : c.updated.Sublist current := hc ▸ sublist_updated
  have inserted : (patched digest previous c.removed (c.added ++ c.updated)).get? k =
      ((c.updated.find? fun e => e.1 = k).map fun e => digest e.2).or
        (((c.added.find? fun e => e.1 = k).map fun e => digest e.2).or
          (if k ∈ c.removed then none else previous.get? k)) := by
    rw [← get?_foldl_erase, ← get?_foldl_set (distinct.sublist (added.map _)),
      ← get?_foldl_set (distinct.sublist (updated.map _)), ← List.foldl_append]
    rfl
  rw [inserted, get?_snapshot distinct, ← changed]
  by_cases gone : k ∈ c.removed
  · have unlisted : k ∉ current.map Prod.fst := (mem_removed_iff.1 (hc ▸ gone)).2
    rw [if_pos gone, if_pos gone, find?_key_eq_none fun h => unlisted ((added.map _).subset h),
      find?_key_eq_none fun h => unlisted ((updated.map _).subset h)]
    rfl
  · rw [if_neg gone, if_neg gone]

/-- **Comparison.** For every snapshot and every listing, repeated keys included: what is added are the
items of the listing whose key the snapshot does not have, what is updated those whose key it has with
another digest, all of them, in the order of the listing and as often as they occur. What is removed are
the keys that the listing lacks, in strictly ascending order; in whatever order the keys are gone through,
sorting gives this list. If no key is repeated, then deleting what is removed and inserting what is added
and updated, under the keys that they have in the listing, gives its keys and digests, and nothing has
changed exactly if the snapshot had them already. -/
theorem between_exact (previous : Table κ Digest) (digest : τ → Digest) (current : List (κ × τ)) :
    ∃ fresh stale : List (κ × τ),
      Picks (fun e => previous.get? e.1 = none) current fresh ∧
      Picks (fun e => ∃ before, previous.get? e.1 = some before ∧ before ≠ digest e.2) current stale ∧
      (between previous digest current).added = fresh.map Prod.snd ∧
      (between previous digest current).updated = stale.map Prod.snd ∧
      (between previous digest current).removed.Pairwise (· < ·) ∧
      (∀ k, k ∈ (between previous digest current).removed ↔
        (∃ d, previous.get? k = some d) ∧ ∀ a, (k, a) ∉ current) ∧
      (∀ order sorted : List κ, order.Perm previous.keys →
        sorted.Perm (order.filter (· ∉ current.map Prod.fst)) → sorted.Pairwise (· ≤ ·) →
        sorted = (between previous digest current).removed) ∧
      ((current.map Prod.fst).Nodup →
        Mirrors (patched digest previous (between previous digest current).removed (fresh ++ stale)) digest
          current ∧
        ((between previous digest current).isEmpty = true ↔ Mirrors previous digest current)) := by
  refine ⟨(entered previous digest current).added, (entered previous digest current).updated, picks_added,
    picks_updated, congrArg added between_eq, congrArg updated between_eq, ascending_removed, ?_,
    fun order sorted => removed_of_order, fun distinct => ⟨?_, ?_⟩⟩
  · exact fun k => mem_removed_between
  · rw [mirrors_iff distinct, between_eq, patched_eq distinct]
  · rw [isEmpty_between, mirrors_iff distinct]
    exact isEmpty_changes_iff distinct

/-- A digest of equal bytes. -/
def flat (b : UInt8) : Digest := ⟨List.replicate 32 b, List.length_replicate⟩

/-- One key goes, one comes, and of the two that stay one has another digest. -/
theorem between_exact_of_turnover :
    let previous := Table.ofList [("b", flat 1), ("c", flat 2), ("a", flat 0)]
    let current : List (String × UInt8) := [("c", 9), ("x", 5), ("a", 0)]
    between previous flat current = ⟨[5], [9], ["b"]⟩ ∧ ¬ Mirrors previous flat current ∧
      ∃ fresh stale, fresh.map Prod.snd = [5] ∧ stale.map Prod.snd = [9] ∧
        Mirrors (patched flat previous ["b"] (fresh ++ stale)) flat current := by
  intro previous current
  have found : between previous flat current = ⟨[5], [9], ["b"]⟩ := by decide +kernel
  obtain ⟨fresh, stale, -, -, added, updated, -, -, -, snapshot⟩ := between_exact previous flat current
  obtain ⟨applied, unchanged⟩ := snapshot (by decide)
  rw [found] at added updated applied unchanged
  exact ⟨found, fun same => absurd (unchanged.2 same) (by decide), fresh, stale, added.symm, updated.symm,
    applied⟩

end Patch

end ChangeSet
end CertWatch
