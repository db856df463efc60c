import CertWatch.Proofs.Allocation.Courses

/-!
# Do results agree?

All calls of a fleet return one and the same prefix, as long as every write takes effect while the lease
of its writer is live. That cannot be done without: a write that is still under way when a prefix has
been returned comes too late, and if it takes effect nevertheless, the next call returns another prefix.
-/

namespace CertWatch
set_option autoImplicit false

namespace Fleet

variable {ro : Roster} {s s' : Fleet} {n m k i j : Nat} {v : String} {now : Nat} {b : Backend}

/-- Whether a call has returned a prefix. -/
def Returns (s : Fleet) (n : Nat) (v : String) : Prop := (s.callers n).phase = .returned (.ok v)

theorem step_of_timely (run : Run (TimelyStep ro) s s') : Run (Step ro) s s' :=
  run.mono fun _ _ _ step => step.1

theorem agreed_of_run (run : Run (TimelyStep ro) (start now b) s) : s.Consistent ro ∧ s.Agreed ro := by
  induction run with
  | refl => exact ⟨consistent_start ro now b, agreed_start ro now b⟩
  | tail _ step ih =>
    obtain ⟨consistent, agreed⟩ := ih
    obtain ⟨e, step⟩ := step
    exact ⟨consistent.step step.1, agreed.step consistent step⟩

theorem Agreed.stored_of_returns (h : s.Agreed ro) (returned : s.Returns n v) :
    ro.stored? s.tenancy = some v := by
  refine h.known n v (.inl ?_)
  rw [returned]
  rfl

theorem Returns.apart (h : s.Returns m v) (apart : Apart ro n s s') (ne : m ≠ n) : s'.Returns m v := by
  unfold Returns
  rw [apart.callers m ne]
  exact h

/-- Calls at different phases are different. -/
theorem ne_of_phase {first second : Phase} (h : (s.callers m).phase = first)
    (h' : (s.callers n).phase = second) (differ : first ≠ second) : m ≠ n := by
  rintro rfl
  exact differ (h.symm.trans h')

/-- A new call of a process that has found nothing as yet returns what is stored. -/
theorem returns_stored (idle : (s.callers n).phase = .idle) (empty : s.cells (ro.home n) = {})
    (stored : ro.stored? s.tenancy = some v) :
    ∃ s', Run (TimelyStep ro) s s' ∧ Apart ro n s s' ∧ s'.Returns n v := by
  obtain ⟨s', run, apart, -, returned⟩ := adopts idle empty stored
    fun _ _ _ step _ notWritten _ => timely_of_ne step notWritten
  exact ⟨s', run, apart, returned⟩

/-- A write that takes effect although another prefix was returned leads the next call astray. -/
theorem Consistent.diverges (h : s.Consistent ro) {f : StoredPrefix}
    (writing : (s.callers k).phase = .working (.writing f)) (pending : (s.callers k).landed = false)
    (returned : s.Returns m v) (idle : (s.callers n).phase = .idle) (empty : s.cells (ro.home n) = {}) :
    ∃ s', Run (Step ro) s s' ∧ s'.Returns m v ∧ s'.Returns n f.value := by
  have nk : n ≠ k := ne_of_phase idle writing nofun
  have mk : m ≠ k := ne_of_phase returned writing nofun
  have mn : m ≠ n := ne_of_phase returned idle nofun
  obtain ⟨middle, landing, apart, cells, -, -, -, stored⟩ := h.lands writing pending
  obtain ⟨last, reading, apart', returned'⟩ := returns_stored (n := n)
    (by rw [apart.callers n nk]; exact idle) (by rw [cells]; exact empty) stored
  exact ⟨last, (Run.single landing).trans (step_of_timely reading),
    (returned.apart apart mk).apart apart' mn, returned'⟩

/-! ## A write that is too late -/

/-- A call comes to write, and its lease lapses meanwhile. -/
theorem lapses (idle : (s.callers n).phase = .idle) (empty : s.cells (ro.home n) = {})
    (nothing : ro.stored? s.tenancy = none) (free : s.tenancy.owner? ro.config.lockResource = none)
    (long : 0 < ro.config.leaseSeconds) :
    ∃ s' g, Run (TimelyStep ro) s s' ∧ Apart ro n s s' ∧
      s'.callers n = { phase := .working (.writing (ro.fresh n)), minted := true } ∧
      s'.cells (ro.home n) = { line := ⟨[n]⟩ } ∧ s'.tenancy.tenants n = .holding g none ∧
      ro.stored? s'.tenancy = none ∧ g.expiresAt ≤ s'.tenancy.now ∧
      s'.tenancy.owner? ro.config.lockResource = none := by
  obtain ⟨s', g, run, apart, here, cell, there, -, nothing', -, -, lease⟩ :=
    mints idle empty nothing free long
  refine ⟨_, g, run.trans (waits ro s' g.expiresAt), ⟨apart.tenants, apart.cells, apart.callers⟩, here, cell,
    there, nothing', Nat.le_add_left _ _, ?_⟩
  have expired : ¬ s'.tenancy.now + g.expiresAt < g.expiresAt := by omega
  simp [Tenancy.owner?, Leases.owner?, lease, Lease.isLive, expired, Option.filter]

/-- A call creates a prefix while it has the lease. -/
theorem Consistent.creates (h : s.Consistent ro) (idle : (s.callers n).phase = .idle)
    (empty : s.cells (ro.home n) = {}) (nothing : ro.stored? s.tenancy = none)
    (free : s.tenancy.owner? ro.config.lockResource = none) (long : 0 < ro.config.leaseSeconds) :
    ∃ s', Run (TimelyStep ro) s s' ∧ Apart ro n s s' ∧ s'.Returns n (ro.fresh n).value ∧
      (s'.callers n).minted = true ∧ s'.tenancy.now = s.tenancy.now := by
  obtain ⟨s₁, g, run₁, apart₁, here₁, cell₁, there₁, now₁, -, lasts, held, lease⟩ :=
    mints idle empty nothing free long
  have owns : ro.Owns s₁.tenancy n := Leases.owner?_eq_some_iff.2 ⟨g.expiresAt, lease, lasts⟩
  obtain ⟨s₂, landing, apart₂, cells₂, here₂, there₂, now₂, -⟩ :=
    (h.run (step_of_timely run₁)).lands (by rw [here₁]) (by rw [here₁])
  have timely : TimelyStep ro s₁ (.moved n .wrote) s₂ := by
    refine ⟨landing, ?_⟩
    rintro m ⟨⟩
    exact owns
  have held₂ : s₂.tenancy.held n = true := by
    unfold Tenancy.held
    rw [there₂, now₂]
    exact held
  rw [here₁] at here₂
  obtain ⟨s₃, run₃, apart₃, here₃, -, now₃, -⟩ := concludes here₂ (by rw [there₂]; exact there₁)
  rw [held₂] at here₃
  refine ⟨s₃, (run₁.tail timely).trans run₃, (apart₁.trans apart₂).trans apart₃, ?_, ?_, ?_⟩
  · unfold Returns
    rw [here₃]
    rfl
  · rw [here₃]
  · rw [now₃, now₂, now₁]

/-- A write takes effect after the lease of its writer has lapsed: the call fails, but what it wrote
stays. -/
theorem Consistent.writes_late (h : s.Consistent ro) {f : StoredPrefix}
    (writing : (s.callers n).phase = .working (.writing f)) (pending : (s.callers n).landed = false)
    (lost : s.tenancy.held n = false) (cell : s.cells (ro.home n) = { line := ⟨[n]⟩ }) :
    ∃ s', Run (Step ro) s s' ∧ Apart ro n s s' ∧ (s'.callers n).minted = true ∧
      s'.cells (ro.home n) = {} ∧ ro.stored? s'.tenancy = some f.value := by
  obtain ⟨s₁, landing, apart₁, cells₁, here₁, there₁, now₁, stored₁⟩ := h.lands writing pending
  rw [(h.sound n).eq_of_writing writing] at here₁
  obtain ⟨g, done?, there, -⟩ := h.guards (.inr ⟨f, writing⟩)
  have lost₁ : s₁.tenancy.held n = false := by
    unfold Tenancy.held
    rw [there₁, now₁]
    exact lost
  obtain ⟨s₂, run₂, apart₂, here₂, cell₂, -, store₂⟩ := concludes here₁ (by rw [there₁]; exact there)
  refine ⟨s₂, (Run.single landing).trans (step_of_timely run₂), apart₁.trans apart₂, ?_, ?_, ?_⟩
  · rw [here₂]
  · rw [cell₂, lost₁, cells₁, cell]
    simp [outcome, Once.settle, Line.leave]
  · rw [Roster.stored?, store₂]
    exact stored₁

/-- Three calls by two processes, and two prefixes: the first call writes so slowly that its lease lapses
meanwhile, the second one creates a prefix and returns it, then the first write takes effect, and the
first process, asked again, takes up what it has written. -/
theorem exists_two_results (ro : Roster) (now : Nat) (b : Backend) (long : 0 < ro.config.leaseSeconds) (differ : ro.home i ≠ ro.home j)
    (again : ro.home k = ro.home i) (ki : k ≠ i)
    (nothing : ro.usable? (b.store.get? ro.config.prefixKey) = none)
    (free : b.leases.get? ro.config.lockResource = none) :
    ∃ s, Run (Step ro) (start now b) s ∧ s.Returns j (ro.fresh j).value ∧ s.Returns k (ro.fresh i).value ∧
      (s.callers i).minted = true ∧ (s.callers j).minted = true := by
  have ji : j ≠ i := fun same => differ (congrArg ro.home same.symm)
  have kj : k ≠ j := by
    rintro rfl
    exact differ again.symm
  have nobody : (start now b).tenancy.owner? ro.config.lockResource = none := by
    simp [start, Tenancy.start, Tenancy.owner?, Leases.owner?, free]
  have consistent := consistent_start ro now b
  obtain ⟨s₁, g, run₁, apart₁, here₁, cell₁, there₁, nothing₁, expired, free₁⟩ :=
    lapses (s := start now b) (n := i) rfl rfl nothing nobody long
  have reached₁ := step_of_timely run₁
  obtain ⟨s₂, run₂, apart₂, returned₂, minted₂, now₂⟩ := (consistent.run reached₁).creates (n := j)
    (by rw [apart₁.callers j ji]; rfl) (by rw [apart₁.cells _ differ.symm]; rfl) nothing₁ free₁ long
  have reached₂ := reached₁.trans (step_of_timely run₂)
  have here₂ := (apart₂.callers i ji.symm).trans here₁
  have lost₂ : s₂.tenancy.held i = false := by
    have late : ¬ s₁.tenancy.now < g.expiresAt := by omega
    simp [Tenancy.held, apart₂.tenants i ji.symm, there₁, now₂, Tenant.guard?, Guard.isHeld, late]
  obtain ⟨s₃, run₃, apart₃, minted₃, cell₃, stored₃⟩ := (consistent.run reached₂).writes_late (n := i)
    (by rw [here₂]) (by rw [here₂]) lost₂ (by rw [apart₂.cells _ differ]; exact cell₁)
  obtain ⟨s₄, run₄, apart₄, returned₄⟩ := returns_stored (n := k)
    (by rw [apart₃.callers k ki, apart₂.callers k kj, apart₁.callers k ki]; rfl)
    (by rw [again]; exact cell₃) stored₃
  refine ⟨s₄, (reached₂.trans run₃).trans (step_of_timely run₄),
    (returned₂.apart apart₃ ji).apart apart₄ kj.symm, returned₄, ?_, ?_⟩
  · rw [apart₄.callers i ki.symm]
    exact minted₃
  · rw [apart₄.callers j kj.symm, apart₃.callers j ji]
    exact minted₂

/-! ## Agreement -/

/-- **Agreement.** In every run of a fleet in which every write takes effect while the lease of its
writer is live, all calls that return a prefix return the same one. And when a prefix was returned, the
lease of whoever still has a write under way has lapsed: if that write takes effect nevertheless, the
next process that asks returns another prefix. -/
theorem results_agree (run : Run (TimelyStep ro) (start now b) s) :
    (∀ m n v v', s.Returns m v → s.Returns n v' → v = v') ∧
      ∀ m v k f, s.Returns m v → (s.callers k).phase = .working (.writing f) →
        (s.callers k).landed = false →
        ¬ ro.Owns s.tenancy k ∧ f.value ≠ v ∧
          ∀ n, (s.callers n).phase = .idle → s.cells (ro.home n) = {} →
            ∃ s', Run (Step ro) s s' ∧ s'.Returns m v ∧ s'.Returns n f.value := by
  obtain ⟨consistent, agreed⟩ := agreed_of_run run
  constructor
  · intro m n v v' first second
    exact Option.some.inj ((agreed.stored_of_returns first).symm.trans (agreed.stored_of_returns second))
  · intro m v k f returned writing pending
    refine ⟨?_, ?_, fun n idle empty => consistent.diverges writing pending returned idle empty⟩
    · intro owns
      have nothing := agreed.room k (.inr ⟨f, writing⟩) pending owns
      rw [agreed.stored_of_returns returned] at nothing
      cases nothing
    · rintro rfl
      obtain ⟨rfl, -⟩ := (consistent.sound k).written f writing
      exact agreed.others k (.inr ⟨_, writing⟩) pending (agreed.stored_of_returns returned)

/-- Two processes that call in turn, with names that grow from call to call. -/
def twoProcesses : Roster where
  config := { host := "h", leaseSeconds := 1 }
  home n := n % 2
  owner n := String.ofList (List.replicate n 'a')
  token n := String.ofList (List.replicate n 'a')
  created _ := ⟨63934444800, 0⟩
  notStatic := rfl
  owner_injective := Tenancy.ofList_replicate_injective 'a'
  token_injective := Tenancy.ofList_replicate_injective 'a'
  regular _ := ⟨by decide, .inl (by decide)⟩
  recent _ := nofun

/-- One call creates a prefix in time: nobody can have returned another one. -/
theorem results_agree_of_creation :
    ∃ s, Run (TimelyStep twoProcesses) (start 0 {}) s ∧ s.Returns 0 "h-" ∧
      ∀ n v, s.Returns n v → v = "h-" := by
  obtain ⟨s, run, -, returned, -, -⟩ := (consistent_start twoProcesses 0 {}).creates (n := 0) rfl rfl rfl rfl
    (by decide)
  exact ⟨s, run, returned, fun n v other => (results_agree run).1 n 0 v "h-" other returned⟩

/-- Without the condition results do not agree. -/
theorem results_disagree :
    ¬ ∀ s, Run (Step twoProcesses) (start 0 {}) s →
      ∀ m n v v', s.Returns m v → s.Returns n v' → v = v' := by
  intro agree
  obtain ⟨s, run, second, third, -, -⟩ := exists_two_results twoProcesses 0 {} (i := 0) (j := 1) (k := 2)
    (by decide) (by decide) rfl (by decide) rfl rfl
  exact absurd (agree s run 1 2 _ _ second third) (by decide)

end Fleet
end CertWatch
