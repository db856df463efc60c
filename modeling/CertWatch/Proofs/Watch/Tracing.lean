import CertWatch.Proofs.Watch.Polling
import CertWatch.Proofs.Watch.Reading

/-!
# Polling, traced

A watcher does not remember what it read, only the digests. To say what the last poll that succeeded
had read, each poll carries its reading along, and a watcher keeps that of the last one. Nothing else
is different: forgetting the readings makes a traced step a step, and every step can be traced. While
nobody else polls, a poll of a store that does not change can be carried out from its beginning to its end.
-/

namespace CertWatch
set_option autoImplicit false

/-- A poll that says what it read. -/
def Memory.tracedPoll (m : Memory) (scope : Scope) : Plan (Reading × Memory × Changes) := do
  let r ← m.reading scope
  return (r, m.commit r)

namespace Watcher

/-- Telling listeners changes nothing but the bus. -/
theorem exists_publish (w : Watcher) (now : Nat) (changes : Changes) :
    ∃ bus, w.publish now changes = { w with bus := bus } := by
  unfold publish
  split
  · exact ⟨w.bus, rfl⟩
  · split
    · exact ⟨_, rfl⟩
    · exact ⟨w.bus, rfl⟩

@[simp] theorem memory_publish (w : Watcher) (now : Nat) (changes : Changes) :
    (w.publish now changes).memory = w.memory := by
  obtain ⟨bus, same⟩ := w.exists_publish now changes
  rw [same]

@[simp] theorem scope_publish (w : Watcher) (now : Nat) (changes : Changes) :
    (w.publish now changes).scope = w.scope := by
  obtain ⟨bus, same⟩ := w.exists_publish now changes
  rw [same]

@[simp] theorem turn_publish (w : Watcher) (now : Nat) (changes : Changes) :
    (w.publish now changes).turn = w.turn := by
  obtain ⟨bus, same⟩ := w.exists_publish now changes
  rw [same]

end Watcher

/-- A watcher with what its last successful poll read, and the plans of the polls that are under
way. -/
structure Tracing where
  watcher : Watcher
  plans : Nat → Option (Plan (Reading × Memory × Changes))
  last : Reading

namespace Tracing

/-- A watcher before any poll. -/
def start (scope : Scope) (memory : Memory) (name : String) : Tracing :=
  ⟨(Polling.start scope memory name).watcher, fun _ => none, .blank memory.kind⟩

/-- A job waits for its turn. -/
def enter (t : Tracing) (id : Nat) : Tracing :=
  { t with watcher := { t.watcher with turn := t.watcher.turn.enter id } }

/-- A job goes on with a plan. -/
def carry (t : Tracing) (id : Nat) (plan : Plan (Reading × Memory × Changes)) : Tracing :=
  { t with plans := Function.update t.plans id (some plan) }

/-- A job has nothing more to do with a watcher. -/
def leave (t : Tracing) (id : Nat) (w : Watcher) (last : Reading) : Tracing where
  watcher := { w with turn := w.turn.leave id }
  plans := Function.update t.plans id none
  last := last

/-- The steps of jobs that poll. A poll that succeeds leaves its reading behind. -/
inductive Step : Tracing → Polling.Event → Tracing → Prop where
  | enter {t : Tracing} (id : Nat) (new : id ∉ t.watcher.turn.members) :
      Step t (.entered id) (t.enter id)
  | begin {t : Tracing} (id : Nat) (turn : t.watcher.turn.holds id = true) (idle : t.plans id = none) :
      Step t (.began id) (t.carry id (t.watcher.memory.tracedPoll t.watcher.scope))
  | answer {t : Tracing} (id : Nat) {c : Call}
      {next : Except Failure c.Answer → Plan (Reading × Memory × Changes)}
      (waits : t.plans id = some (.call c next)) (r : Except Failure c.Answer) :
      Step t (.answered id) (t.carry id (next r))
  | substitute {t : Tracing} (id : Nat) {key : String} {failure : DecryptFailure}
      {next : Option Bytes → Plan (Reading × Memory × Changes)}
      (waits : t.plans id = some (.consult key failure next)) (bytes : Option Bytes) :
      Step t (.answered id) (t.carry id (next bytes))
  | fail {t : Tracing} (id : Nat) {f : Failure} (ended : t.plans id = some (.done (.error f)))
      (now : Nat) : Step t (.concluded id (t.watcher.conclude now (.error f)).2)
        (t.leave id (t.watcher.conclude now (.error f)).1 t.last)
  | conclude {t : Tracing} (id : Nat) {r : Reading} {found : Memory × Changes}
      (ended : t.plans id = some (.done (.ok (r, found)))) (now : Nat) :
      Step t (.concluded id (t.watcher.conclude now (.ok found)).2)
        (t.leave id (t.watcher.conclude now (.ok found)).1 r)
  | callOff {t : Tracing} (id : Nat) : Step t (.calledOff id) (t.leave id t.watcher t.last)

/-! ## Forgetting what was read -/

/-- Forgets the reading of a poll. -/
def untraced (plan : Plan (Reading × Memory × Changes)) : Plan (Memory × Changes) := do
  return Prod.snd (← plan)

theorem untraced_tracedPoll (m : Memory) (scope : Scope) :
    untraced (m.tracedPoll scope) = m.poll scope := by
  rw [m.poll_eq]
  simp [untraced, Memory.tracedPoll]

/-- A traced watcher as it is seen without the readings. -/
def polling (t : Tracing) : Polling := ⟨t.watcher, fun id => (t.plans id).map untraced⟩

@[simp] theorem polling_start (scope : Scope) (memory : Memory) (name : String) :
    (start scope memory name).polling = Polling.start scope memory name := rfl

theorem polling_carry (t : Tracing) (id : Nat) (plan : Plan (Reading × Memory × Changes)) :
    (t.carry id plan).polling = t.polling.carry id (untraced plan) := by
  have plans := Function.comp_update (Option.map untraced) t.plans id (some plan)
  exact congrArg (Polling.mk t.watcher) plans

theorem polling_leave (t : Tracing) (id : Nat) (w : Watcher) (last : Reading) :
    (t.leave id w last).polling = t.polling.leave id w := by
  have plans := Function.comp_update (Option.map untraced) t.plans id none
  exact congrArg (Polling.mk { w with turn := w.turn.leave id }) plans

theorem plans_polling {t : Tracing} {id : Nat} {plan : Plan (Reading × Memory × Changes)}
    (h : t.plans id = some plan) : t.polling.plans id = some (untraced plan) := by
  show (t.plans id).map untraced = _
  rw [h, Option.map_some]

/-- A traced step is a step. -/
theorem Step.polling {t t' : Tracing} {e : Polling.Event} (step : Step t e t') :
    Polling.Step t.polling e t'.polling := by
  cases step with
  | enter id new => exact .enter id new
  | begin id turn idle =>
    rw [polling_carry, untraced_tracedPoll]
    refine .begin (p := t.polling) id turn ?_
    show (t.plans id).map untraced = none
    rw [idle, Option.map_none]
  | answer id waits r =>
    rw [polling_carry]
    exact .answer (p := t.polling) id (plans_polling waits) r
  | substitute id waits bytes =>
    rw [polling_carry]
    exact .substitute (p := t.polling) id (plans_polling waits) bytes
  | fail id ended now =>
    rw [polling_leave]
    exact .conclude (p := t.polling) id (plans_polling ended) now
  | conclude id ended now =>
    rw [polling_leave]
    exact .conclude (p := t.polling) id (plans_polling ended) now
  | callOff id =>
    rw [polling_leave]
    exact .callOff (p := t.polling) id

/-- Every step can be traced. -/
theorem exists_step {t : Tracing} {e : Polling.Event} {p' : Polling}
    (step : Polling.Step t.polling e p') : ∃ t', Step t e t' ∧ t'.polling = p' := by
  cases step with
  | enter id new => exact ⟨_, .enter id new, rfl⟩
  | begin id turn idle =>
    have free : t.plans id = none := Option.map_eq_none_iff.1 idle
    refine ⟨_, .begin id turn free, ?_⟩
    rw [polling_carry, untraced_tracedPoll]
    rfl
  | answer id waits r =>
    obtain ⟨plan, there, same⟩ := Option.map_eq_some_iff.1 waits
    cases plan with
    | done result => cases result <;> cases same
    | call c next =>
      cases same
      exact ⟨_, .answer id there r, polling_carry t id _⟩
    | consult key failure next => cases same
  | substitute id waits bytes =>
    obtain ⟨plan, there, same⟩ := Option.map_eq_some_iff.1 waits
    cases plan with
    | done result => cases result <;> cases same
    | call c next => cases same
    | consult key failure next =>
      cases same
      exact ⟨_, .substitute id there bytes, polling_carry t id _⟩
  | conclude id ended now =>
    obtain ⟨plan, there, same⟩ := Option.map_eq_some_iff.1 ended
    cases plan with
    | done result =>
      cases result with
      | error f =>
        cases same
        exact ⟨_, .fail id there now, polling_leave t id _ _⟩
      | ok found =>
        obtain ⟨r, found⟩ := found
        cases same
        exact ⟨_, .conclude id there now, polling_leave t id _ _⟩
    | call c next => cases same
    | consult key failure next => cases same
  | callOff id => exact ⟨_, .callOff id, polling_leave t id _ _⟩

/-- Every run can be traced. -/
theorem exists_run {scope : Scope} {memory : Memory} {name : String} {p : Polling}
    (run : Run Polling.Step (Polling.start scope memory name) p) :
    ∃ t, Run Step (start scope memory name) t ∧ t.polling = p := by
  induction run with
  | refl => exact ⟨_, Run.refl _, polling_start scope memory name⟩
  | tail _ step ih =>
    obtain ⟨t, run, rfl⟩ := ih
    obtain ⟨e, step⟩ := step
    obtain ⟨t', step, same⟩ := exists_step step
    exact ⟨t', run.tail step, same⟩

/-! ## What a watcher has of its last reading -/

section Plans

variable {t : Tracing} {id : Nat} {fits : Plan (Reading × Memory × Changes) → Prop}

/-- What holds of every plan that is under way still does when a job goes on with one of which it holds. -/
theorem forall_plans_carry {plan : Plan (Reading × Memory × Changes)}
    (h : ∀ other under, t.plans other = some under → fits under) (new : fits plan) :
    ∀ other under, (t.carry id plan).plans other = some under → fits under :=
  forall_update (fun _ same => Option.some.inj same ▸ new) fun other under _ => h other under

/-- And it does when a job leaves. -/
theorem forall_plans_leave {w : Watcher} {last : Reading}
    (h : ∀ other under, t.plans other = some under → fits under) :
    ∀ other under, (t.leave id w last).plans other = some under → fits under :=
  forall_update (fun _ same => nomatch same) fun other under _ => h other under

end Plans

/-- What holds between any two steps. -/
structure Consistent (scope : Scope) (kind : Option BundleConfig) (t : Tracing) : Prop where
  here : t.watcher.scope = scope
  watches : t.watcher.memory.kind = kind
  last : t.last.Of kind
  /-- The memory has the digests of the last reading. -/
  snapshot : t.watcher.memory.snapshot = t.last.snapshot
  /-- However a plan that is under way succeeds, its memory has the digests of its reading. -/
  plans : ∀ id plan, t.plans id = some plan → ∀ r m c, plan.Ends (.ok (r, m, c)) →
    r.Of kind ∧ m.kind = kind ∧ m.snapshot = r.snapshot

section Steps

variable {scope : Scope} {kind : Option BundleConfig} {t t' : Tracing} {e : Polling.Event}

theorem Consistent.carry (h : t.Consistent scope kind) {id : Nat}
    {plan : Plan (Reading × Memory × Changes)}
    (ends : ∀ r m c, plan.Ends (.ok (r, m, c)) → r.Of kind ∧ m.kind = kind ∧ m.snapshot = r.snapshot) :
    (t.carry id plan).Consistent scope kind :=
  { h with plans := forall_plans_carry h.plans ends }

/-- A job leaves, and the plans of the others stay as they were. -/
theorem Consistent.leave (h : t.Consistent scope kind) (id : Nat) {w : Watcher} {last : Reading}
    (here : w.scope = scope) (watches : w.memory.kind = kind) (read : last.Of kind)
    (remembers : w.memory.snapshot = last.snapshot) : (t.leave id w last).Consistent scope kind :=
  ⟨here, watches, read, remembers, forall_plans_leave h.plans⟩

theorem Consistent.step (h : t.Consistent scope kind) (step : Step t e t') :
    t'.Consistent scope kind := by
  cases step with
  | enter id new => exact { h with }
  | begin id turn idle =>
    refine h.carry fun r m c ends => ?_
    obtain ⟨read, done, same⟩ := ends.of_map
    obtain ⟨rfl, found⟩ := Prod.mk.inj same
    have of := Memory.of_ends_reading done
    obtain ⟨watches, remembers, -⟩ := Memory.commit_spec of
    rw [← found] at watches remembers
    exact ⟨h.watches ▸ of, watches.trans h.watches, remembers⟩
  | answer id waits r =>
    exact h.carry fun _ _ _ ends => h.plans id _ waits _ _ _ (.call r ends)
  | substitute id waits bytes =>
    exact h.carry fun _ _ _ ends => h.plans id _ waits _ _ _ (.consult bytes ends)
  | fail id ended now => exact h.leave id h.here h.watches h.last h.snapshot
  | @conclude id r found ended now =>
    obtain ⟨read, watches, remembers⟩ := h.plans id _ ended r found.1 found.2 (.done _)
    refine h.leave id ?_ ?_ read ?_
    · simpa [Watcher.conclude] using h.here
    · simpa [Watcher.conclude] using watches
    · simpa [Watcher.conclude] using remembers
  | callOff id => exact h.leave id h.here h.watches h.last h.snapshot

theorem consistent_start (scope : Scope) {memory : Memory} (fresh : memory.snapshot = memory.blank)
    (name : String) : (start scope memory name).Consistent scope memory.kind where
  here := rfl
  watches := rfl
  last := Reading.of_blank _
  snapshot := by
    show memory.snapshot = _
    rw [fresh]
    cases memory <;> rfl
  plans _ _ under := by cases under

theorem consistent_of_run {memory : Memory} {name : String} (fresh : memory.snapshot = memory.blank)
    (run : Run Step (start scope memory name) t) : t.Consistent scope memory.kind :=
  run.keeps (fun _ _ _ h step => h.step step) (consistent_start scope fresh name)

theorem run_polling {memory : Memory} {name : String} (run : Run Step (start scope memory name) t) :
    Run Polling.Step (Polling.start scope memory name) t.polling := by
  induction run with
  | refl => exact Run.refl _
  | tail _ step ih =>
    obtain ⟨e, step⟩ := step
    exact ih.tail step.polling

end Steps

/-! ## Polls that nothing comes between -/

/-- Nobody polls. -/
structure Quiet (t : Tracing) : Prop where
  nobody : t.watcher.turn.members = []
  idle : ∀ id, t.plans id = none

section Quiet

variable {t : Tracing}

theorem carry_carry (t : Tracing) (id : Nat) (p q : Plan (Reading × Memory × Changes)) :
    (t.carry id p).carry id q = t.carry id q := by
  simp [carry]

@[simp] theorem plans_carry (t : Tracing) (id : Nat) (plan : Plan (Reading × Memory × Changes)) :
    (t.carry id plan).plans id = some plan := by
  simp [carry]

/-- A plan that is under way can be carried out to its end. -/
theorem run_plan (answer : Nat → (c : Call) → Except Failure c.Answer)
    (handler : String → DecryptFailure → Option Bytes) (t : Tracing) (id n : Nat)
    (plan : Plan (Reading × Memory × Changes)) :
    Run Step (t.carry id plan) (t.carry id (.done (plan.run answer handler n))) := by
  induction plan generalizing n with
  | done result => exact Run.refl _
  | call c next ih =>
    have answered := Step.answer id (t.plans_carry id (.call c next)) (answer n c)
    rw [carry_carry] at answered
    exact (Run.single answered).trans (ih (answer n c) (n + 1))
  | consult key failure next ih =>
    have answered := Step.substitute id (t.plans_carry id (.consult key failure next)) (handler key failure)
    rw [carry_carry] at answered
    exact (Run.single answered).trans (ih (handler key failure) n)

/-- Who comes when nobody polls can begin at once. -/
theorem Quiet.run_begin (h : t.Quiet) (id : Nat) :
    Run Step t ((t.enter id).carry id (t.watcher.memory.tracedPoll t.watcher.scope)) := by
  have turn : (t.enter id).watcher.turn.holds id = true := by
    simp [enter, Line.enter, Line.holds, h.nobody]
  exact (Run.single (.enter id (by simp [h.nobody]))).tail (.begin id turn (h.idle id))

/-- When the only poll is over, nobody polls. -/
theorem Quiet.leave (h : t.Quiet) {id : Nat} {plan : Plan (Reading × Memory × Changes)} {w : Watcher}
    {last : Reading} (turn : w.turn = (t.enter id).watcher.turn) :
    (((t.enter id).carry id plan).leave id w last).Quiet := by
  refine ⟨?_, fun other => ?_⟩
  · simp [Tracing.leave, turn, enter, Line.enter, Line.leave, h.nobody]
  · by_cases same : other = id
    · simp [Tracing.leave, same]
    · simpa [Tracing.leave, carry, enter, same] using h.idle other

/-- While nobody polls, a store that does not change can be polled, and what there is to read is read. -/
theorem Quiet.exists_run (h : t.Quiet) {v : View} (here : v.scope = t.watcher.scope) :
    ∃ t', Run Step t t' ∧ t'.Quiet ∧ t'.watcher.scope = v.scope ∧
      t'.watcher.memory = (t.watcher.memory.commit (v.reading t.watcher.memory.kind)).1 ∧
      t'.last = v.reading t.watcher.memory.kind := by
  have ended : (t.watcher.memory.tracedPoll t.watcher.scope).run v.content.answer v.handler 0 =
      .ok (v.reading t.watcher.memory.kind, t.watcher.memory.commit (v.reading t.watcher.memory.kind)) := by
    rw [← here]
    exact (View.yields_reading v.content.answers_answer t.watcher.memory).map _ 0
  have carried := run_plan v.content.answer v.handler (t.enter 0) 0 0
    (t.watcher.memory.tracedPoll t.watcher.scope)
  rw [ended] at carried
  refine ⟨_, ((h.run_begin 0).trans carried).tail (.conclude 0 (plans_carry _ _ _) 0), h.leave ?_, ?_, ?_, rfl⟩
  · simp [Watcher.conclude, carry]
  · simp [Tracing.leave, Watcher.conclude, carry, enter, here]
  · simp [Tracing.leave, Watcher.conclude]

/-- And a poll can fail, as any failure of the store makes it. -/
theorem Quiet.exists_run_failed (h : t.Quiet) (f : Failure) :
    ∃ t', Run Step t t' ∧ t'.plans 0 = some (.done (.error f)) ∧ t'.last = t.last := by
  have ended : (t.watcher.memory.tracedPoll t.watcher.scope).run (fun _ _ => .error f) (fun _ _ => none) 0 =
      .error f := by
    cases t.watcher.memory <;> rfl
  have carried := run_plan (fun _ _ => .error f) (fun _ _ => none) (t.enter 0) 0 0
    (t.watcher.memory.tracedPoll t.watcher.scope)
  rw [ended] at carried
  exact ⟨_, (h.run_begin 0).trans carried, plans_carry _ _ _, rfl⟩

end Quiet
end Tracing
end CertWatch
