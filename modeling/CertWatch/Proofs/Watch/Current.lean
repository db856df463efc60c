import CertWatch.Proofs.Watch.Tracing
import CertWatch.Proofs.Time.Order

/-!
# The current bundles

A watcher of bundles lists those that its last successful poll assembled, the latest modified first. It
keeps them in a table by key, and how this is gone through makes no difference: of two bundles with
different keys one stands before the other, so there is one order that a listing can have.
-/

namespace CertWatch
set_option autoImplicit false

/-! ## The order of a listing -/

namespace Bundle

open Timestamp (earlier)

variable {a b c : Bundle}

/-- One bundle stands before another: it was modified later, or at the same time and its key is smaller.
A bundle without a modification counts as modified before all others. -/
def Precedes (a b : Bundle) : Prop :=
  earlier b.modified a.modified = true ∨ a.modified = b.modified ∧ a.key < b.key

instance : DecidableRel Precedes := fun _ _ => inferInstanceAs (Decidable (_ ∨ _))

theorem Precedes.asymm (h : a.Precedes b) : ¬ b.Precedes a := by
  have irrefl : ∀ {m m'}, m = m' → ¬ earlier m m' = true := fun same later =>
    Timestamp.not_earlier_self _ (same ▸ later)
  rcases h with later | ⟨same, smaller⟩
  · rintro (later' | ⟨same, -⟩)
    · exact Timestamp.not_earlier_self _ (Timestamp.earlier_trans later later')
    · exact irrefl same later
  · rintro (later | ⟨-, smaller'⟩)
    · exact irrefl same later
    · exact Std.lt_irrefl (Std.lt_trans smaller smaller')

/-- Where one bundle stands before another, a third one stands after the one or before the other. -/
theorem Precedes.between (h : a.Precedes c) (b : Bundle) : a.Precedes b ∨ b.Precedes c := by
  by_cases first : earlier b.modified a.modified = true
  · exact .inl (.inl first)
  by_cases last : earlier a.modified b.modified = true
  · right; left
    rcases h with later | ⟨same, -⟩
    · exact Timestamp.earlier_trans later last
    · exact same ▸ last
  have tie := Timestamp.eq_of_not_earlier last first
  rcases h with later | ⟨same, smaller⟩
  · exact .inr (.inl (tie ▸ later))
  · by_cases before : a.key < b.key
    · exact .inl (.inr ⟨tie, before⟩)
    · exact .inr (.inr ⟨tie.symm.trans same, Std.lt_of_le_of_lt (Std.not_lt.1 before) smaller⟩)

theorem precedes_or_precedes (ne : a.key ≠ b.key) : a.Precedes b ∨ b.Precedes a := by
  by_cases first : earlier b.modified a.modified = true
  · exact .inl (.inl first)
  by_cases last : earlier a.modified b.modified = true
  · exact .inr (.inl last)
  have tie := Timestamp.eq_of_not_earlier last first
  by_cases before : a.key < b.key
  · exact .inl (.inr ⟨tie, before⟩)
  by_cases after : b.key < a.key
  · exact .inr (.inr ⟨tie.symm, after⟩)
  exact absurd (Table.eq_of_not_lt before after) ne

end Bundle

namespace BundleWatch

open Timestamp (earlier)

variable {a b c : Bundle} {as bs : List Bundle}

/-- A bundle comes first unless the other one stands before it. -/
theorem comesFirst_iff : comesFirst a b = true ↔ ¬ b.Precedes a := by
  simp only [comesFirst, Bundle.Precedes, Bool.or_eq_true, Bool.and_eq_true, Bool.not_eq_true',
    decide_eq_false_iff_not, not_or, not_and]
  constructor
  · rintro (later | ⟨notLater, notSmaller⟩)
    · refine ⟨fun earlier => ?_, fun same => ?_⟩
      · exact absurd (Timestamp.earlier_trans later earlier) (Timestamp.not_earlier_self _)
      · exact absurd (same ▸ later) (Timestamp.not_earlier_self _)
    · exact ⟨by simpa using notLater, fun _ => notSmaller⟩
  · rintro ⟨notLater, notSmaller⟩
    by_cases later : earlier b.modified a.modified = true
    · exact .inl later
    · exact .inr ⟨by simpa using notLater, notSmaller (Timestamp.eq_of_not_earlier later notLater)⟩

theorem comesFirst_trans (a b c : Bundle) (h : comesFirst a b = true) (h' : comesFirst b c = true) :
    comesFirst a c = true := by
  rw [comesFirst_iff] at *
  intro before
  rcases before.between b with other | other
  · exact h' other
  · exact h other

theorem comesFirst_total (a b : Bundle) : (comesFirst a b || comesFirst b a) = true := by
  rw [Bool.or_eq_true, comesFirst_iff, comesFirst_iff]
  by_cases before : b.Precedes a
  · exact .inr before.asymm
  · exact .inl before

/-- Bundles with distinct keys that were sorted stand one before the other. -/
theorem precedes_mergeSort (distinct : (bs.map Bundle.key).Nodup) :
    (bs.mergeSort comesFirst).Pairwise Bundle.Precedes := by
  have sorted := List.pairwise_mergeSort comesFirst_trans comesFirst_total bs
  have keys : ((bs.mergeSort comesFirst).map Bundle.key).Nodup :=
    ((List.mergeSort_perm bs comesFirst).map Bundle.key).nodup_iff.2 distinct
  refine sorted.imp₂ (fun a b first ne => ?_) (List.pairwise_map.1 keys)
  exact (Bundle.precedes_or_precedes ne).resolve_right (comesFirst_iff.1 first)

/-- There is only one way to put bundles in order. -/
theorem eq_of_precedes (perm : as.Perm bs) (h : as.Pairwise Bundle.Precedes)
    (h' : bs.Pairwise Bundle.Precedes) : as = bs :=
  perm.eq_of_pairwise (fun _ _ _ _ before after => absurd after before.asymm) h h'

end BundleWatch

/-! ## What is kept of a reading -/

namespace Table

/-- A table of items by their keys has each item once, if the keys are distinct. -/
theorem perm_values_ofList {κ ν : Type} [LT κ] [LE κ] [Std.LawfulOrderLT κ] [DecidableEq κ]
    [Std.IsLinearOrder κ] [DecidableLT κ] {key : ν → κ} {items : List ν}
    (distinct : (items.map key).Nodup) : (ofList (items.map fun a => (key a, a))).values.Perm items := by
  have found : ∀ k, (ofList (items.map fun a => (key a, a))).get? k = items.find? fun a => key a = k := by
    intro k
    rw [get?_ofList_map distinct, Option.map_id']
  generalize ofList (items.map fun a => (key a, a)) = t at found
  have listed : ∀ e ∈ t.entries, items.find? (fun a => key a = e.1) = some e.2 := fun e there =>
    (found e.1).symm.trans (get?_of_mem_entries there)
  have keys : t.values.map key = t.keys := by
    rw [values, List.map_map]
    exact List.map_congr_left fun e there => by simpa using List.find?_some (listed e there)
  refine (List.perm_ext_iff_of_nodup (.of_map key (keys ▸ t.nodup_keys)) (distinct.of_map key)).2 fun a => ?_
  constructor
  · intro among
    obtain ⟨e, there, rfl⟩ := List.mem_map.1 among
    exact List.mem_of_find?_eq_some (listed e there)
  · intro among
    have here := (found (key a)).trans (ChangeSet.find?_key distinct among)
    exact List.mem_map.2 ⟨_, mem_entries_of_get? here, rfl⟩

end Table

/-- A memory of bundles holds a reading: it has the bundles that were read, as they are. -/
inductive Memory.Holds (config : BundleConfig) : Memory → Reading → Prop where
  | intro {w : BundleWatch} {bs : List Bundle} (previous : w.previous = .ofList (bs.map fun b => (b.key, b))) :
      Holds config (.bundles config w) (.bundles bs)

/-- What a poll assembled. -/
def Reading.Assembled (config : BundleConfig) (scope : Scope) (r : Reading) : Prop :=
  ∃ bs, r = .bundles bs ∧ (config.assemble scope).Ends (.ok bs)

/-- A memory that takes a reading of its own over holds it. -/
theorem Memory.holds_of_ends_reading {config : BundleConfig} {scope : Scope} {m : Memory} {r : Reading}
    (kind : m.kind = some config) (h : (m.reading scope).Ends (.ok r)) :
    (m.commit r).1.Holds config r ∧ r.Assembled config scope := by
  cases m with
  | records w => cases kind
  | bundles c w =>
    cases kind
    obtain ⟨bs, assembled, rfl⟩ := h.of_map
    exact ⟨.intro rfl, bs, rfl, assembled⟩

namespace Tracing

variable {scope : Scope} {config : BundleConfig} {name : String} {t t' : Tracing} {e : Polling.Event}

/-- The memory holds the last reading, which is what a poll assembled, unless there was none. However a
plan that is under way succeeds, its memory will hold what it assembled. -/
structure Retains (config : BundleConfig) (scope : Scope) (t : Tracing) : Prop where
  last : t.watcher.memory.Holds config t.last
  assembled : t.last = .bundles [] ∨ t.last.Assembled config scope
  plans : ∀ id plan, t.plans id = some plan → ∀ r m c, plan.Ends (.ok (r, m, c)) →
    m.Holds config r ∧ r.Assembled config scope

theorem Retains.step (h : t.Retains config scope) (traced : t.Consistent scope (some config))
    (step : Step t e t') : t'.Retains config scope := by
  cases step with
  | enter id new => exact { h with }
  | begin id turn idle =>
    refine { h with plans := forall_plans_carry h.plans fun r m c ends => ?_ }
    -- The plan has its reading taken over by the memory as it is now, which may be another at its end.
    obtain ⟨read, done, same⟩ := ends.of_map
    obtain ⟨rfl, found⟩ := Prod.mk.inj same
    rw [traced.here] at done
    have holds := Memory.holds_of_ends_reading traced.watches done
    rwa [← found] at holds
  | answer id waits r =>
    exact { h with plans := forall_plans_carry h.plans fun _ _ _ ends => h.plans id _ waits _ _ _ (.call r ends) }
  | substitute id waits bytes =>
    exact { h with
      plans := forall_plans_carry h.plans fun _ _ _ ends => h.plans id _ waits _ _ _ (.consult bytes ends) }
  | fail id ended now => exact ⟨h.last, h.assembled, forall_plans_leave h.plans⟩
  | @conclude id r found ended now =>
    obtain ⟨holds, assembled⟩ := h.plans id _ ended r found.1 found.2 (.done _)
    refine ⟨?_, .inr assembled, forall_plans_leave h.plans⟩
    simpa [Tracing.leave, Watcher.conclude] using holds
  | callOff id => exact ⟨h.last, h.assembled, forall_plans_leave h.plans⟩

theorem retains_of_run (run : Run Step (start scope (.bundles config {}) name) t) :
    t.Retains config scope := by
  have empty : (Memory.bundles config {}).snapshot = (Memory.bundles config {}).blank := rfl
  have nothing : (start scope (.bundles config {}) name).Retains config scope :=
    ⟨.intro rfl, .inl rfl, fun _ _ under => nomatch under⟩
  have kept : ∀ s e s', s.Consistent scope (some config) ∧ s.Retains config scope → Step s e s' →
      s'.Consistent scope (some config) ∧ s'.Retains config scope :=
    fun _ _ _ h step => ⟨h.1.step step, h.2.step h.1 step⟩
  exact (run.keeps kept ⟨consistent_start scope empty name, nothing⟩).2

/-- Only a poll that succeeds changes what there is. -/
theorem Step.of_no_success (step : Step t e t') (no : ∀ id changes, e ≠ .concluded id (.ok changes)) :
    t'.watcher.memory = t.watcher.memory ∧ t'.last = t.last := by
  cases step with
  | conclude id ended now => exact absurd rfl (no id _)
  | _ => exact ⟨rfl, rfl⟩

/-- A poll that succeeds leaves its reading. -/
theorem Step.of_succeeded {id : Nat} {changes : Option Changes}
    (step : Step t (.concluded id (.ok changes)) t') :
    ∃ found, t.plans id = some (.done (.ok (t'.last, found))) := by
  generalize told : Polling.Event.concluded id (.ok changes) = e at step
  cases step with
  | fail id ended now => cases told
  | @conclude id' r found ended now =>
    cases told
    exact ⟨found, ended⟩
  | _ => cases told

/-- **The current listing.** After any run of polls, whose last success is known by what it read, the
bundles that a watcher lists are those that this poll assembled, as they were read, each of them once,
and none if there was no such poll. Of any two the one that was modified later comes first, and of two
that were modified at the same time, or not at all, the one with the smaller key. The listing is the same
in whatever order the table is gone through. A poll that succeeds replaces it, whether it tells of changes
or not, and nothing else changes it, so one that fails or is called off leaves it as it was. -/
theorem current_exact (run : Run Step (start scope (.bundles config {}) name) t) :
    (∀ p, Run Polling.Step (Polling.start scope (.bundles config {}) name) p →
      ∃ t', Run Step (start scope (.bundles config {}) name) t' ∧ t'.polling = p) ∧
    (∃ w assembled, t.watcher.memory = .bundles config w ∧ t.last = .bundles assembled ∧
      (assembled = [] ∨ (config.assemble scope).Ends (.ok assembled)) ∧
      w.current.Perm assembled ∧ (w.current.map Bundle.key).Nodup ∧ w.current.Pairwise Bundle.Precedes ∧
      ∀ order : List Bundle, order.Perm w.previous.values →
        order.mergeSort BundleWatch.comesFirst = w.current) ∧
    (∀ e t', Step t e t' → (∀ id told, e ≠ .concluded id (.ok told)) →
      t'.watcher.memory = t.watcher.memory ∧ t'.last = t.last) ∧
    ∀ id told t', Step t (.concluded id (.ok told)) t' →
      ∃ found, t.plans id = some (.done (.ok (t'.last, found))) ∧ t'.last.Assembled config scope := by
  have retained := retains_of_run run
  refine ⟨fun p ran => exists_run ran, ?_, fun e t' => Step.of_no_success, fun id told t' step => ?_⟩
  · obtain ⟨holds, assembled, -⟩ := retained
    generalize t.watcher.memory = memory at holds
    generalize t.last = last at holds assembled
    obtain @⟨w, bs, previous⟩ := holds
    have source : bs = [] ∨ (config.assemble scope).Ends (.ok bs) := by
      rcases assembled with nothing | ⟨bs', same, ended⟩
      · exact .inl (Reading.bundles.inj nothing)
      · exact .inr (Reading.bundles.inj same ▸ ended)
    -- Distinct keys leave one place in the listing for each bundle, whatever the order of the table.
    have distinct : (bs.map Bundle.key).Nodup := by
      rcases source with rfl | ended
      · exact List.nodup_nil
      · exact BundleConfig.nodup_of_ends_assemble ended
    have values : w.previous.values.Perm bs := previous ▸ Table.perm_values_ofList distinct
    have listed : w.current.Perm bs := (List.mergeSort_perm _ _).trans values
    have keys : ∀ order : List Bundle, order.Perm bs → (order.map Bundle.key).Nodup := fun order perm =>
      (perm.map Bundle.key).nodup_iff.2 distinct
    refine ⟨w, bs, rfl, rfl, source, listed, keys _ listed, ?_, fun order perm => ?_⟩
    · exact BundleWatch.precedes_mergeSort (keys _ values)
    · refine BundleWatch.eq_of_precedes ?_ (BundleWatch.precedes_mergeSort (keys _ (perm.trans values)))
        (BundleWatch.precedes_mergeSort (keys _ values))
      exact (List.mergeSort_perm _ _).trans (perm.trans (List.mergeSort_perm _ _).symm)
  · obtain ⟨found, ended⟩ := step.of_succeeded
    exact ⟨found, ended, (retained.plans id _ ended _ found.1 found.2 (.done _)).2⟩

/-- A store with two bundles of one record each, the second one with a modification of its own. -/
def twoBundles (modified : String) : View where
  scope := ⟨"n", none⟩
  content :=
    ⟨fun _ => ["n/certificates/s/d/a.crt", "n/certificates/s/d/b.crt"], fun key => some (Utf8.encode
      ("\x7b\"value\":\"QQ==\",\"modified\":\"" ++
        (if key = "n/certificates/s/d/b.crt" then modified else "2026-01-01T00:00:00Z") ++ "\"\x7d"))⟩
  handler := fun _ _ => none

/-- A bundle that was only written anew moves to the front, and a poll that fails leaves it there. -/
theorem current_exact_of_rewritten_bundle :
    ∃ t t' w, Run Step (start ⟨"n", none⟩ (.bundles { roles := ["crt"] } {}) "") t ∧
      Step t (.concluded 0 (.error .cancelled)) t' ∧ t'.watcher.memory = .bundles { roles := ["crt"] } w ∧
      w.current = ((twoBundles "2026-01-01T00:00:01Z").bundles { roles := ["crt"] }).reverse ∧
      w.current.map (fun b => b.key.text) = ["s/d/b", "s/d/a"] := by
  have quiet : (start ⟨"n", none⟩ (.bundles { roles := ["crt"] } {}) "").Quiet := ⟨rfl, fun _ => rfl⟩
  obtain ⟨t₁, run₁, quiet, here, memory, -⟩ := quiet.exists_run (v := twoBundles "2025-12-31T23:59:59Z") rfl
  obtain ⟨t₂, run₂, quiet, -, -, last⟩ := quiet.exists_run (v := twoBundles "2026-01-01T00:00:01Z") here.symm
  obtain ⟨t, run₃, ended, same⟩ := quiet.exists_run_failed .cancelled
  have run := (run₁.trans run₂).trans run₃
  have failed := Step.fail 0 ended 0
  obtain ⟨-, ⟨w, assembled, holds, read, -, perm, -, sorted, -⟩, kept, -⟩ := current_exact run
  have reading : t.last = .bundles ((twoBundles "2026-01-01T00:00:01Z").bundles { roles := ["crt"] }) := by
    rw [same, last, memory]
    rfl
  obtain rfl := Reading.bundles.inj (read.symm.trans reading)
  have listed : w.current = ((twoBundles "2026-01-01T00:00:01Z").bundles { roles := ["crt"] }).reverse := by
    refine BundleWatch.eq_of_precedes (perm.trans (List.reverse_perm _).symm) sorted ?_
    decide +kernel
  refine ⟨t, _, w, run, failed, (kept _ _ failed (fun _ _ => nofun)).1.trans holds, listed, ?_⟩
  rw [listed]
  decide +kernel

end Tracing
end CertWatch
