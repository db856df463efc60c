import CertWatch.Proofs.Changes
import CertWatch.Proofs.Watch.Listing
import CertWatch.Watch.Watcher

/-!
# Snapshots of a watcher

What a listener can know of a watcher is its snapshot: the digest of every key that the last
successful poll found. A poll that succeeds, whatever it was answered on its way, gives changes that
lead from the snapshot before it to the one after it.
-/

namespace CertWatch
set_option autoImplicit false

/-- The digests by key, of records or of bundles. -/
inductive Snapshot where
  | records (known : Table String Digest)
  | bundles (known : Table BundleKey Digest)

namespace Memory

/-- The snapshot that a watcher remembers. -/
def snapshot : Memory → Snapshot
  | records w => .records w.known
  | bundles _ w => .bundles (w.previous.map Bundle.digest)

/-- The snapshot before the first poll. -/
def blank : Memory → Snapshot
  | records _ => .records .empty
  | bundles .. => .bundles .empty

end Memory

namespace Changes

/-- Applies changes to a snapshot, each under its condition: none if one of them does not fit. -/
def amended? : Changes → Snapshot → Option Snapshot
  | records c, .records t => (c.amended? Record.key Record.digest t).map .records
  | bundles c, .bundles t => (c.amended? Bundle.key Bundle.digest t).map .bundles
  | records _, .bundles _ => none
  | bundles _, .records _ => none

/-- Whether the changes name each key at most once. -/
def NamesOnce : Changes → Prop
  | records c => (c.names Record.key).Nodup
  | bundles c => (c.names Bundle.key).Nodup

/-- Applies changes in order. -/
def replay (told : List Changes) (start : Snapshot) : Option Snapshot :=
  told.foldlM (fun s c => c.amended? s) start

end Changes

namespace ChangeSet

section Empty

variable {τ κ : Type}

theorem isEmpty_iff {c : ChangeSet τ κ} : c.isEmpty = true ↔ c = ⟨[], [], []⟩ := by
  obtain ⟨added, updated, removed⟩ := c
  simp [isEmpty, and_assoc]

end Empty

section Nothing

variable {τ κ : Type} [LT κ] [DecidableEq κ] [LE κ] [Std.IsLinearOrder κ] [Std.LawfulOrderLT κ]
  [DecidableLT κ] {key : τ → κ} {digest : τ → Digest}

theorem amended?_of_isEmpty {c : ChangeSet τ κ} (h : c.isEmpty = true) (t : Table κ Digest) :
    amended? key digest c t = some t := by
  rw [isEmpty_iff.1 h]
  rfl

/-- There are no changes to a listing with distinct keys exactly if the snapshot is that of it. -/
theorem isEmpty_changes_iff {previous : Table κ Digest} {current : List τ}
    (distinct : (current.map key).Nodup) :
    (changes key digest previous current).isEmpty = true ↔ previous = snapshot key digest current := by
  constructor
  · intro empty
    have applied : amended? key digest (changes key digest previous current) previous =
        some (snapshot key digest current) := amended?_changes distinct
    rw [amended?_of_isEmpty empty] at applied
    exact Option.some.inj applied
  · rintro rfl
    have found : ∀ a ∈ current, (snapshot key digest current).get? (key a) = some (digest a) := by
      intro a ha
      rw [get?_snapshot distinct, find?_key distinct ha, Option.map_some]
    have added : (changes key digest (snapshot key digest current) current).added = [] := by
      rw [List.eq_nil_iff_forall_not_mem]
      intro a new
      obtain ⟨ha, absent⟩ := mem_added_iff.1 new
      rw [found a ha] at absent
      cases absent
    have updated : (changes key digest (snapshot key digest current) current).updated = [] := by
      rw [List.eq_nil_iff_forall_not_mem]
      intro a other
      obtain ⟨ha, d, there, differs⟩ := mem_updated_iff.1 other
      rw [found a ha] at there
      exact differs (Option.some.inj there).symm
    have removed : (changes key digest (snapshot key digest current) current).removed = [] := by
      rw [List.eq_nil_iff_forall_not_mem]
      intro k gone
      obtain ⟨there, unlisted⟩ := mem_removed_iff.1 gone
      rw [← Table.isSome_get?_iff, get?_snapshot distinct, find?_key_eq_none unlisted] at there
      cases there
    rw [isEmpty, added, updated, removed]
    rfl

end Nothing

end ChangeSet

namespace RecordWatch

/-- Taking records over leads to the snapshot of the records. -/
theorem amended?_commit (w : RecordWatch) {current : List Record}
    (distinct : (current.map Record.key).Nodup) :
    (w.commit current).2.amended? Record.key Record.digest w.known = some (w.commit current).1.known :=
  ChangeSet.amended?_changes distinct

end RecordWatch

namespace BundleWatch

theorem digests_commit (w : BundleWatch) {current : List Bundle}
    (distinct : (current.map Bundle.key).Nodup) :
    (w.commit current).1.previous.map Bundle.digest =
      ChangeSet.snapshot Bundle.key Bundle.digest current := by
  apply Table.ext_get?
  intro k
  rw [Table.get?_map, commit, Table.get?_ofList_map distinct, ChangeSet.get?_snapshot distinct,
    Option.map_map]
  rfl

/-- Taking bundles over leads to the snapshot of the bundles. -/
theorem amended?_commit (w : BundleWatch) {current : List Bundle}
    (distinct : (current.map Bundle.key).Nodup) :
    (w.commit current).2.amended? Bundle.key Bundle.digest (w.previous.map Bundle.digest) =
      some ((w.commit current).1.previous.map Bundle.digest) := by
  rw [w.digests_commit distinct]
  exact ChangeSet.amended?_changes distinct

end BundleWatch

/-- What a successful poll makes of a memory. -/
structure Memory.Advances (before after : Memory) (changes : Changes) : Prop where
  blank : after.blank = before.blank
  once : changes.NamesOnce
  apply : changes.amended? before.snapshot = some after.snapshot

/-- Taking over records with distinct keys advances a memory of records. -/
theorem RecordWatch.advances_commit (w : RecordWatch) {current : List Record}
    (distinct : (current.map Record.key).Nodup) :
    (Memory.records w).Advances (.records (w.commit current).1) (.records (w.commit current).2) where
  blank := rfl
  once := ChangeSet.nodup_names distinct
  apply := congrArg (Option.map Snapshot.records) (w.amended?_commit distinct)

/-- Taking over bundles with distinct keys advances a memory of bundles. -/
theorem BundleWatch.advances_commit (config : BundleConfig) (w : BundleWatch) {current : List Bundle}
    (distinct : (current.map Bundle.key).Nodup) :
    (Memory.bundles config w).Advances (.bundles config (w.commit current).1)
      (.bundles (w.commit current).2) where
  blank := rfl
  once := ChangeSet.nodup_names distinct
  apply := congrArg (Option.map Snapshot.bundles) (w.amended?_commit distinct)

/-- **A poll.** Whatever its calls are answered, a poll that succeeds gives changes that fit the
snapshot before it and lead to the one after it. -/
theorem Memory.advances_of_ends {scope : Scope} {before after : Memory} {changes : Changes}
    (h : (before.poll scope).Ends (.ok (after, changes))) : before.Advances after changes := by
  cases before with
  | records w =>
    obtain ⟨polled, committed, same⟩ := Plan.Ends.of_map h
    obtain ⟨current, read, rfl⟩ := Plan.Ends.of_map committed
    obtain ⟨rfl, rfl⟩ := Prod.mk.inj same
    exact w.advances_commit (Scope.nodup_of_ends_records read)
  | bundles config w =>
    obtain ⟨polled, committed, same⟩ := Plan.Ends.of_map h
    obtain ⟨current, read, rfl⟩ := Plan.Ends.of_map committed
    obtain ⟨rfl, rfl⟩ := Prod.mk.inj same
    exact w.advances_commit config (BundleConfig.nodup_of_ends_assemble read)

/-- Changes that are empty fit every snapshot of their kind and leave it as it is. -/
theorem Memory.Advances.snapshot_of_isEmpty {before after : Memory} {changes : Changes}
    (h : before.Advances after changes) (empty : changes.isEmpty = true) :
    after.snapshot = before.snapshot := by
  have applied := h.apply
  cases changes with
  | records c =>
    cases before with
    | records w =>
      simp only [Memory.snapshot, Changes.amended?, ChangeSet.amended?_of_isEmpty empty, Option.map_some,
        Option.some.injEq] at applied
      exact applied.symm
    | bundles => cases applied
  | bundles c =>
    cases before with
    | bundles config w =>
      simp only [Memory.snapshot, Changes.amended?, ChangeSet.amended?_of_isEmpty empty, Option.map_some,
        Option.some.injEq] at applied
      exact applied.symm
    | records => cases applied

namespace Changes

theorem replay_append {told : List Changes} {start last : Snapshot} {c : Changes}
    (h : replay told start = some last) : replay (told ++ [c]) start = c.amended? last := by
  rw [replay, List.foldlM_append]
  show (replay told start >>= fun s => [c].foldlM (fun s c => c.amended? s) s) = _
  rw [h]
  simp

end Changes
end CertWatch
