import CertWatch.Proofs.Allocation.Results

/-!
# Who creates prefixes

At most one call ever comes to a prefix that it generated itself, and if no write takes effect too late,
at most one process ever has a prefix of its own. If moreover no lease lapses before its guard ends and no
write fails, at most one call comes to write at all.
-/

namespace CertWatch
set_option autoImplicit false

namespace Fleet

variable {ro : Roster} {s s' : Fleet} {e : Event} {n m k p q : Nat} {v : String} {now : Nat} {b : Backend}

/-- Whether a process has returned a prefix that one of its calls generated. -/
def ReturnsOwn (ro : Roster) (s : Fleet) (p : Nat) : Prop :=
  ∃ m n, ro.home m = p ∧ ro.home n = p ∧ (s.callers m).minted = true ∧ s.Returns n (ro.fresh m).value

/-- Whether everybody to whom the lease is granted has it. -/
def Steady (ro : Roster) (s : Fleet) : Prop :=
  ∀ n, (s.tenancy.tenants n).Granted ro.config.lockResource → ro.Owns s.tenancy n

/-- The steps of a fleet in which no granted lease has lapsed and no write is answered by a failure. -/
def SteadyStep (ro : Roster) (s : Fleet) (e : Event) (s' : Fleet) : Prop :=
  Step ro s e s' ∧ s.Steady ro ∧ ∀ n f, e ≠ .moved n (.acknowledged (.error f))

theorem Consistent.owns_of_minting (h : s.Consistent ro) (steady : s.Steady ro)
    (minting : (s.callers n).Minting ro) : ro.Owns s.tenancy n :=
  steady n (h.guards minting).granted

/-- While leases do not lapse, every write is in time. -/
theorem Consistent.timely_of_steady (h : s.Consistent ro) (step : SteadyStep ro s e s') :
    TimelyStep ro s e s' := by
  refine ⟨step.1, ?_⟩
  rintro n rfl
  cases step.1 with
  | move _ move =>
    obtain ⟨⟨f, writing⟩, -⟩ := move.of_wrote
    exact h.owns_of_minting step.2.1 (.inr ⟨f, writing⟩)

/-! ## What is stored -/

theorem Consistent.minted_kept (h : s.Consistent ro) (step : Step ro s e s')
    (minted : (s.callers n).minted = true) : (s'.callers n).minted = true := by
  rcases caller_of_step step n with same | ⟨a, d, -, move, rfl⟩
  · rw [same]
    exact minted
  · rw [place_callers_self]
    exact move.minted_kept (h.sound n) minted

theorem Consistent.minted_of_run (h : s.Consistent ro) (run : Run (Step ro) s s')
    (minted : (s.callers n).minted = true) : (s'.callers n).minted = true := by
  induction run with
  | refl => exact minted
  | tail run step ih =>
    obtain ⟨e, step⟩ := step
    exact (h.run run).minted_kept step ih

/-- What is stored was stored before, or some call has generated it. -/
theorem origin_of_run (run : Run (Step ro) (start now b) s) :
    s.Consistent ro ∧ (ro.stored? s.tenancy = ro.stored? (start now b).tenancy ∨
      ∃ n, (s.callers n).minted = true ∧ ro.stored? s.tenancy = some (ro.fresh n).value) := by
  induction run with
  | refl => exact ⟨consistent_start ro now b, .inl rfl⟩
  | tail _ step ih =>
    obtain ⟨consistent, origin⟩ := ih
    obtain ⟨e, step⟩ := step
    refine ⟨consistent.step step, ?_⟩
    by_cases written : ∃ n, e = .moved n .wrote
    · obtain ⟨n, rfl⟩ := written
      cases step with
      | move _ move =>
        obtain ⟨⟨f, writing⟩, -⟩ := move.of_wrote
        refine .inr ⟨n, ?_, move.stored?_of_wrote (consistent.sound n)⟩
        rw [place_callers_self]
        exact move.minted_kept (consistent.sound n) ((consistent.sound n).written f writing).2
    · rw [stored?_of_step step fun n same => written ⟨n, same⟩]
      rcases origin with before | ⟨n, minted, stored⟩
      · exact .inl before
      · exact .inr ⟨n, consistent.minted_kept step minted, stored⟩

/-! ## Only one write -/

/-- At most one call has come to write, and it is still at it or has written. -/
structure Sole (s : Fleet) : Prop where
  unique : ∀ m n, (s.callers m).minted = true → (s.callers n).minted = true → m = n
  underWay : ∀ n, (s.callers n).minted = true →
    (s.callers n).landed = true ∨ ∃ f, (s.callers n).phase = .working (.writing f)

theorem sole_start (now : Nat) (b : Backend) : (start now b).Sole where
  unique _ _ minted _ := by cases minted
  underWay _ minted := by cases minted

/-- A call comes to write only if nobody else has. -/
theorem Consistent.minted_of_step (h : s.Consistent ro) (step : Step ro s e s')
    (minted : (s'.callers n).minted = true) :
    (s.callers n).minted = true ∨ (s.callers n).Minting ro ∧ (s.callers n).landed = false ∧
      (s.callers n).phase = .working .rereading ∧ ∃ f, (s'.callers n).phase = .working (.writing f) := by
  rcases caller_of_step step n with same | ⟨a, d, -, move, rfl⟩
  · exact .inl (same ▸ minted)
  · rw [place_callers_self] at minted ⊢
    rcases move.minted minted with before | ⟨minting, here, writing⟩
    · exact .inl before
    · have unminted := (h.sound n).early (here ▸ rfl) (here ▸ fun _ => nofun)
      refine .inr ⟨minting, ?_, here, writing⟩
      cases landed : (s.callers n).landed with
      | false => rfl
      | true =>
        rw [(h.sound n).earned landed] at unminted
        cases unminted

theorem Sole.step (h : s.Sole) (consistent : s.Consistent ro) (agreed : s.Agreed ro)
    (exclusive : s.Exclusive ro) (step : SteadyStep ro s e s') : s'.Sole := by
  obtain ⟨step, steady, noFailure⟩ := step
  -- Whoever has come to write has written, or has the lease.
  have alone : ∀ m n, (s.callers m).minted = true → (s.callers n).Minting ro →
      (s.callers n).landed = false → m = n := by
    intro m n minted minting pending
    have owns := consistent.owns_of_minting steady minting
    have nothing := agreed.room n minting pending owns
    rcases h.underWay m minted with landed | ⟨f, writing⟩
    · have stored := exclusive.stored m landed
      rw [nothing] at stored
      cases stored
    · exact eq_of_owns (consistent.owns_of_minting steady (.inr ⟨f, writing⟩)) owns
  constructor
  · intro m n first second
    rcases consistent.minted_of_step step first with first' | ⟨minting, pending, -, -⟩
    · rcases consistent.minted_of_step step second with second' | ⟨minting, pending, -, -⟩
      · exact h.unique m n first' second'
      · exact alone m n first' minting pending
    · rcases consistent.minted_of_step step second with second' | ⟨minting', -, -, -⟩
      · exact (alone n m second' minting pending).symm
      · exact eq_of_owns (consistent.owns_of_minting steady minting)
          (consistent.owns_of_minting steady minting')
  · intro n minted
    rcases consistent.minted_of_step step minted with before | ⟨-, -, -, writing⟩
    · rcases caller_of_step step n with same | ⟨a, d, rfl, move, rfl⟩
      · rw [same]
        exact h.underWay n before
      · rw [place_callers_self]
        rcases h.underWay n before with landed | ⟨f, writing⟩
        · exact .inl (move.landed_kept (consistent.sound n) landed)
        · rcases move.writing_kept writing with still | ⟨r, rfl, told⟩
          · exact .inr ⟨f, still⟩
          · cases r with
            | error failure => exact absurd rfl (noFailure n failure)
            | ok done => exact .inl (move.landed_kept (consistent.sound n) (told rfl))
    · exact .inr writing

theorem exclusive_of_run (run : Run (Step ro) (start now b) s) : s.Consistent ro ∧ s.Exclusive ro := by
  induction run with
  | refl => exact ⟨consistent_start ro now b, exclusive_start ro now b⟩
  | tail _ step ih =>
    obtain ⟨consistent, exclusive⟩ := ih
    obtain ⟨e, step⟩ := step
    exact ⟨consistent.step step, exclusive.step consistent step⟩

/-- A run in which leases do not lapse and writes do not fail is one in which writes are in time. -/
theorem sole_of_run (run : Run (SteadyStep ro) (start now b) s) :
    Run (TimelyStep ro) (start now b) s ∧ s.Sole := by
  induction run with
  | refl => exact ⟨Run.refl _, sole_start now b⟩
  | tail _ step ih =>
    obtain ⟨run, sole⟩ := ih
    obtain ⟨e, step⟩ := step
    obtain ⟨consistent, agreed⟩ := agreed_of_run run
    obtain ⟨-, exclusive⟩ := exclusive_of_run (step_of_timely run)
    exact ⟨run.tail (consistent.timely_of_steady step), sole.step consistent agreed exclusive step⟩

/-- In time, all prefixes of one's own are the same one, and so of one process. -/
theorem own_unique (run : Run (TimelyStep ro) (start now b) s) (first : s.ReturnsOwn ro p)
    (second : s.ReturnsOwn ro q) : p = q := by
  obtain ⟨-, agreed⟩ := agreed_of_run run
  obtain ⟨m, n, rfl, -, -, returned⟩ := first
  obtain ⟨m', n', rfl, -, -, returned'⟩ := second
  have same := Option.some.inj ((agreed.stored_of_returns returned).symm.trans
    (agreed.stored_of_returns returned'))
  rw [ro.fresh_value_injective same]

/-- A write that comes too late gives its process a prefix of its own, once it is asked again. -/
theorem own_of_late (run : Run (TimelyStep ro) (start now b) s) (own : s.ReturnsOwn ro p) {f : StoredPrefix}
    (writing : (s.callers k).phase = .working (.writing f)) (pending : (s.callers k).landed = false)
    (cell : s.cells (ro.home k) = { line := ⟨[k]⟩ }) (idle : (s.callers n).phase = .idle)
    (again : ro.home n = ro.home k) :
    ∃ s', Run (Step ro) s s' ∧ s'.ReturnsOwn ro p ∧ s'.ReturnsOwn ro (ro.home k) := by
  obtain ⟨consistent, agreed⟩ := agreed_of_run run
  obtain ⟨m, r, homeM, homeR, minted, returned⟩ := own
  have nk : n ≠ k := ne_of_phase idle writing nofun
  have rk : r ≠ k := ne_of_phase returned writing nofun
  have rn : r ≠ n := ne_of_phase returned idle nofun
  have lost : s.tenancy.held k = false := by
    cases held : s.tenancy.held k with
    | false => rfl
    | true =>
      have owns := consistent.owns_of_held (.inr ⟨f, writing⟩) held
      have nothing := agreed.room k (.inr ⟨f, writing⟩) pending owns
      rw [agreed.stored_of_returns returned] at nothing
      cases nothing
  obtain ⟨middle, landing, apart, minted', cell', stored⟩ :=
    consistent.writes_late writing pending lost cell
  obtain ⟨last, reading, apart', returned'⟩ := returns_stored (n := n)
    (by rw [apart.callers n nk]; exact idle) (by rw [again]; exact cell') stored
  have whole := landing.trans (step_of_timely reading)
  have kept : ∀ i, (s.callers i).minted = true → (last.callers i).minted = true :=
    fun i => consistent.minted_of_run whole
  refine ⟨last, whole, ⟨m, r, homeM, homeR, kept m minted, (returned.apart apart rk).apart apart' rn⟩,
    ⟨k, n, rfl, again, ?_, ?_⟩⟩
  · exact kept k ((consistent.sound k).written f writing).2
  · rw [← ((consistent.sound k).written f writing).1]
    exact returned'

/-- **Creation.** However leases lapse and calls fail, at most one call of a fleet returns a prefix that
it generated itself. If every write takes effect while the lease of its writer is live, at most one
process returns a prefix that any of its calls generated; and when one has, a write of another process
that is still under way, if it takes effect nevertheless, gives that process one, too. If no granted lease
lapses before its guard ends and no write fails, at most one call comes to write, and every prefix that is
returned was stored before or is the one that this call has written. -/
theorem one_creator (ro : Roster) (now : Nat) (b : Backend) :
    (∀ s, Run (Step ro) (start now b) s → ∀ m n v v', (s.callers m).minted = true → s.Returns m v →
      (s.callers n).minted = true → s.Returns n v' → m = n) ∧
    (∀ s, Run (TimelyStep ro) (start now b) s →
      (∀ p q, s.ReturnsOwn ro p → s.ReturnsOwn ro q → p = q) ∧
      ∀ p k f, s.ReturnsOwn ro p → (s.callers k).phase = .working (.writing f) →
        (s.callers k).landed = false → s.cells (ro.home k) = { line := ⟨[k]⟩ } →
        ∀ n, (s.callers n).phase = .idle → ro.home n = ro.home k →
          ∃ s', Run (Step ro) s s' ∧ s'.ReturnsOwn ro p ∧ s'.ReturnsOwn ro (ro.home k)) ∧
    ∀ s, Run (SteadyStep ro) (start now b) s →
      (∀ m n, (s.callers m).minted = true → (s.callers n).minted = true → m = n) ∧
      ∀ n v, s.Returns n v → ro.stored? (start now b).tenancy = some v ∨
        ∃ m, (s.callers m).minted = true ∧ v = (ro.fresh m).value := by
  refine ⟨?_, ?_, ?_⟩
  · intro s run m n v v' mintedM returnedM mintedN returnedN
    obtain ⟨-, exclusive⟩ := exclusive_of_run run
    exact exclusive.unique m n ⟨mintedM, v, by rw [returnedM]; rfl⟩ ⟨mintedN, v', by rw [returnedN]; rfl⟩
  · intro s run
    refine ⟨fun p q first second => own_unique run first second, ?_⟩
    intro p k f own writing pending cell n idle again
    exact own_of_late run own writing pending cell idle again
  · intro s run
    obtain ⟨timely, sole⟩ := sole_of_run run
    obtain ⟨-, agreed⟩ := agreed_of_run timely
    refine ⟨sole.unique, ?_⟩
    intro n v returned
    have stored := agreed.stored_of_returns returned
    rcases (origin_of_run (step_of_timely timely)).2 with before | ⟨m, minted, own⟩
    · exact .inl (before ▸ stored)
    · exact .inr ⟨m, minted, Option.some.inj (stored.symm.trans own)⟩

/-- A call creates a prefix in time, and nobody else has one; where one was stored, it is returned. -/
theorem one_creator_of_creation :
    (∃ s, Run (TimelyStep twoProcesses) (start 0 {}) s ∧ s.ReturnsOwn twoProcesses 0 ∧
      (∀ n v, (s.callers n).minted = true → s.Returns n v → n = 0) ∧
      ∀ p, s.ReturnsOwn twoProcesses p → p = 0) ∧
    ∃ b s, twoProcesses.stored? (start 0 b).tenancy = some "h-aaa" ∧
      Run (SteadyStep twoProcesses) (start 0 b) s ∧ s.Returns 0 "h-aaa" ∧
      ∀ m n, (s.callers m).minted = true → (s.callers n).minted = true → m = n := by
  constructor
  · obtain ⟨s, run, -, returned, minted, -⟩ := (consistent_start twoProcesses 0 {}).creates (n := 0) rfl rfl rfl
      rfl (by decide)
    have own : s.ReturnsOwn twoProcesses 0 := ⟨0, 0, rfl, rfl, minted, returned⟩
    obtain ⟨single, timely, -⟩ := one_creator twoProcesses 0 {}
    refine ⟨s, run, own, ?_, fun p other => (timely s run).1 p 0 other own⟩
    intro n v minted' returned'
    exact single s (step_of_timely run) n 0 v _ minted' returned' minted returned
  · have stored : twoProcesses.stored? (start 0
        { store := Table.empty.insert twoProcesses.config.prefixKey (twoProcesses.fresh 3).encode }).tenancy =
          some "h-aaa" :=
      (congrArg twoProcesses.usable? (Table.get?_insert_self _ _ _)).trans (twoProcesses.usable?_fresh 3)
    obtain ⟨s, run, -, -, returned⟩ := adopts (S := SteadyStep twoProcesses) (n := 0) rfl rfl stored (by
      intro s a s' step same notWritten notHeard
      refine ⟨step, ?_, ?_⟩
      · intro n granted
        rw [same] at granted
        cases granted
      · rintro n f ⟨⟩
        exact notHeard _ rfl)
    exact ⟨_, s, stored, run, returned, ((one_creator twoProcesses 0 _).2.2 s run).1⟩

/-- A write that comes too late lets two processes return prefixes of their own. -/
theorem two_creators :
    ¬ ∀ s, Run (Step twoProcesses) (start 0 {}) s →
      ∀ p q, s.ReturnsOwn twoProcesses p → s.ReturnsOwn twoProcesses q → p = q := by
  intro unique
  obtain ⟨s, run, second, third, minted, minted'⟩ := exists_two_results twoProcesses 0 {} (i := 0) (j := 1)
    (k := 2) (by decide) (by decide) rfl (by decide) rfl rfl
  exact absurd (unique s run 0 1 ⟨0, 2, rfl, rfl, minted, third⟩ ⟨1, 1, rfl, rfl, minted', second⟩) (by decide)

end Fleet
end CertWatch
