import CertWatch.Proofs.Lease.Attempts
import CertWatch.Rehearsal.Leases
import CertWatch.Schedule

/-!
# The job that acquires a lease

While a service answers at once, the job goes on as the acquisition does: by one attempt within a turn,
by one pause until its timer rings. So turn by turn it asks when the acquisition does, whatever other
jobs do in between, and ends as it does. Only a granted attempt starts another job, the one that renews
the lease.
-/

namespace CertWatch.Act
set_option autoImplicit false
open Schedule

variable {ρ : Type} {id : Nat} {s : Schedule World ρ}

/-! ## Turns -/

/-- The schedule after a call was noted. -/
def noted (c : Call) (s : Schedule World ρ) : Schedule World ρ :=
  { s with state := { s.state with calls := c.method :: s.state.calls } }.wake

/-- The schedule after a call that takes no time, with the answer. -/
def called (c : Call) (s : Schedule World ρ) : Schedule World ρ × Except Failure c.Answer :=
  let r := (noted c s).state.answer s.now c
  ({ noted c s with state := r.1 }.wake, r.2)

theorem advance_park_of_reached {due : Nat} {condition : World → Bool} {next : Job World ρ}
    (rung : Clock.reached s.now due = true) :
    advance id (.park (some due) condition next) s = advance id next s := by
  have goes : (condition s.state || (some due).any (Clock.reached s.now)) = true := by
    rw [Option.any_some, rung, Bool.or_true]
  rw [advance, if_pos goes]

theorem advance_park_of_not_reached {due : Nat} {next : Job World ρ}
    (early : Clock.reached s.now due = false) :
    advance id (.park (some due) (fun _ => false) next) s = (s, .park (some due) (fun _ => false) next) := by
  have waits : ¬ (false || (some due).any (Clock.reached s.now)) = true := by
    rw [Option.any_some, early]
    decide
  rw [advance, if_neg waits]

/-- A call of a kind that takes no time is made and answered within a turn. -/
theorem advance_call (c : Call) {next : Except Failure c.Answer → Job World ρ}
    (whole : Clock.ring s.now = s.now) (prompt : s.state.delay c.method = 0) :
    advance id (call c next) s = advance id (next (called c s).2) (called c s).1 := by
  have atOnce : (noted c s).state.delay c.method = 0 := prompt
  have rung : Clock.reached (noted c s).now (Clock.afterPause (noted c s).now 0) = true := by
    have same : (noted c s).now = s.now := rfl
    have now : Clock.afterPause s.now 0 = s.now := by
      rw [Clock.afterPause, Nat.zero_min, Nat.add_zero]
    rw [same, now, Clock.reached, whole]
    exact decide_eq_true (Nat.le_refl _)
  simp only [call, bind, Flow.edit, Flow.get, Flow.now, Flow.sleep, Flow.sleepUntil, Flow.update]
  rw [advance, advance, advance, advance]
  change advance id (.park (some (Clock.afterPause (noted c s).now ((noted c s).state.delay c.method)))
    (fun _ => false) _) (noted c s) = _
  rw [atOnce, advance_park_of_reached rung, advance, advance, advance]
  rfl

/-! ## Acquisitions -/

variable [Inhabited ρ] {a : Acquisition} {answers : Nat → Except Failure Bool} {p : Pursuit}
  {giveUp : Except Failure Nat} {fuel : Nat} {k : Except Failure Nat → Job World ρ}

/-- What is left of the job of an acquisition that stands somewhere; `k` is done with the outcome. -/
def pursuing (a : Acquisition) (giveUp : Except Failure Nat) (k : Except Failure Nat → Job World ρ) (fuel : Nat)
    (stand : Acquisition.Stand) : Job World ρ :=
  Flow.iterate (pursue a) giveUp fuel stand k

/-- The schedule after a guard was taken over: its job is the next one. -/
def holding (g : Guard) (s : Schedule World ρ) : Schedule World ρ :=
  { s with
    nextId := s.nextId + 1
    queue := s.queue ++ [(s.nextId, renewals.job)]
    state := { s.state with guards := s.state.guards.insert s.nextId g } }.wake

theorem pursuing_asking (since : Nat) :
    (pursuing a giveUp k (fuel + 1) (.asking since) : Job World ρ) =
      call a.attempt fun answer =>
        .look fun now _ _ => pursuing a giveUp k fuel (a.answered since now answer) := by
  simp only [pursuing, Flow.iterate, pursue, bind, pure, Flow.now]

theorem pursuing_pausing (next : Nat) :
    (pursuing a giveUp k (fuel + 1) (.pausing next) : Job World ρ) =
      .park (some next) (fun _ => false) (.look fun now _ _ => pursuing a giveUp k fuel (.asking now)) := by
  simp only [pursuing, Flow.iterate, pursue, bind, pure, Flow.now, Flow.sleepUntil]

theorem pursuing_granted (g : Guard) :
    (pursuing a giveUp k (fuel + 1) (.ended (.ok g)) : Job World ρ) = hold g fun id => k (.ok id) := by
  simp only [pursuing, Flow.iterate, pursue, bind, pure]

theorem pursuing_failed (f : Failure) :
    (pursuing a giveUp k (fuel + 1) (.ended (.error f)) : Job World ρ) = k (.error f) := by
  simp only [pursuing, Flow.iterate, pursue, bind, pure]

/-- The job begins with an owner of its own and an attempt at once. -/
theorem advance_acquire (resource : String) (lease retry : Nat) (timeout : Option Nat) :
    ∃ owner drawn, drawn.now = s.now ∧
      advance id (acquire resource lease retry timeout k) s =
        advance id (pursuing
          (.start resource owner (lease * Clock.millisecond) (retry * Clock.millisecond)
            (timeout.map fun t => t * Clock.millisecond) s.now)
          (.error .cancelled) k patience (.asking s.now)) drawn := by
  refine ⟨Bytes.toHex (Bytes.bigEndian 16 ((s.state.drawn + 1) * stride)), { s with state := s.state.draw.1 }.wake,
    rfl, ?_⟩
  simp only [acquire, freshHex, bind, pure, Flow.now, Flow.update]
  rw [advance, advance, advance]
  simp only [pursuing, World.draw]

/-- An attempt is made and answered within a turn, and no job is started for it. -/
theorem advance_asking {since : Nat} (here : p.stand = .asking since) (now : p.now = s.now)
    (whole : Clock.ring s.now = s.now) (prompt : s.state.delay .tryAcquire = 0)
    (answer : answers p.attempts.length = (called a.attempt s).2) :
    advance id (pursuing a giveUp k (fuel + 1) p.stand) s =
        advance id (pursuing a giveUp k fuel (a.proceed answers p).stand) (called a.attempt s).1 ∧
      (called a.attempt s).1.now = (a.proceed answers p).now ∧
      (called a.attempt s).1.nextId = s.nextId := by
  have moved : a.proceed answers p =
      ⟨s.now, a.answered since s.now (called a.attempt s).2, p.attempts ++ [(s.now, a.attempt)]⟩ := by
    simp only [Acquisition.proceed, here, now, answer]
  refine ⟨?_, ?_, rfl⟩
  · rw [moved, here, pursuing_asking, advance_call a.attempt whole prompt, advance]
    rfl
  · rw [moved]
    rfl

variable (a answers giveUp k fuel id) in
/-- During a pause the job waits for the timer, and then makes the next attempt. -/
theorem advance_pausing {next : Nat} (here : p.stand = .pausing next)
    (early : Clock.reached s.now next = false) :
    ∃ parked, advance id (pursuing a giveUp k (fuel + 1) p.stand) s = (s, parked) ∧
      parked.due? = some next ∧
      ∀ later : Schedule World ρ, later.now = (a.proceed answers p).now →
        advance id parked later = advance id (pursuing a giveUp k fuel (a.proceed answers p).stand) later := by
  have moved : a.proceed answers p =
      ⟨max p.now (Clock.ring next), .asking (max p.now (Clock.ring next)), p.attempts⟩ := by
    simp only [Acquisition.proceed, here]
  refine ⟨.park (some next) (fun _ => false) (.look fun now _ _ => pursuing a giveUp k fuel (.asking now)),
    ?_, rfl, ?_⟩
  · rw [here, pursuing_pausing, advance_park_of_not_reached early]
  · intro later now
    rw [moved] at now ⊢
    have rung : Clock.reached later.now next = true := by
      rw [now, Clock.reached]
      exact decide_eq_true (Nat.le_max_right _ _)
    rw [advance_park_of_reached rung, advance, now]

/-- A grant starts the job of the guard, which renews the lease. -/
theorem advance_granted {g : Guard} (here : p.stand = .ended (.ok g)) :
    advance id (pursuing a giveUp k (fuel + 1) p.stand) s = advance id (k (.ok s.nextId)) (holding g s) := by
  rw [here, pursuing_granted]
  simp only [hold, bind, pure, Flow.fork, Flow.edit]
  rw [advance, advance, advance]
  rfl

/-- A failure is returned in the same turn, and no job is started for it. -/
theorem advance_failed {f : Failure} (here : p.stand = .ended (.error f)) :
    advance id (pursuing a giveUp k (fuel + 1) p.stand) s = advance id (k (.error f)) s := by
  rw [here, pursuing_failed]

/-! ## Turn by turn -/

/-- What is left of the job before a turn, if the schedules are those that it meets at its turns. -/
def left (a : Acquisition) (giveUp : Except Failure Nat) (k : Except Failure Nat → Job World ρ) (id begun fuel : Nat)
    (met : Nat → Schedule World ρ) : Nat → Job World ρ
  | 0 => pursuing a giveUp k fuel (.asking begun)
  | n + 1 => (advance id (left a giveUp k id begun fuel met n) (met n)).2

/-- The schedules that a job meets at its turns if it is served when its timers ring, and if the service
answers at once: other jobs may have done anything else in between. -/
structure Meets (a : Acquisition) (answers : Nat → Except Failure Bool) (begun : Nat)
    (met : Nat → Schedule World ρ) : Prop where
  now : ∀ n, (met n).now = a.instant begun n
  prompt : ∀ n, (met n).state.delay .tryAcquire = 0
  answer : ∀ n, answers n = (called a.attempt (met n)).2

variable {begun n : Nat} {timeout : Option Nat} {met : Nat → Schedule World ρ}

/-- Within a turn, an attempt that is due is made and answered. -/
theorem advance_turn (h : a.OnMilliseconds begun timeout) (meets : Meets a answers begun met)
    (denied : Acquisition.Denied answers n) (within : a.InTime timeout n) :
    advance id (pursuing a giveUp k (fuel + 1) (.asking (a.instant begun n))) (met n) =
      advance id (pursuing a giveUp k fuel (a.pursued answers begun (2 * n + 1)).stand)
        (called a.attempt (met n)).1 := by
  have asking := Acquisition.pursued_asking h denied within
  have now : (a.pursued answers begun (2 * n)).now = (met n).now := by
    rw [asking, meets.now]
  have whole : Clock.ring (met n).now = (met n).now := by
    rw [meets.now, h.ring_instant]
  have answer : answers (a.pursued answers begun (2 * n)).attempts.length = (called a.attempt (met n)).2 := by
    rw [asking, Acquisition.length_made, meets.answer]
  have turn : advance id (pursuing a giveUp k (fuel + 1) (a.pursued answers begun (2 * n)).stand) (met n) =
      advance id (pursuing a giveUp k fuel (a.pursued answers begun (2 * n + 1)).stand)
        (called a.attempt (met n)).1 := by
    rw [Acquisition.pursued_succ]
    exact (advance_asking (congrArg Pursuit.stand asking) now whole (meets.prompt n) answer).1
  rwa [asking] at turn

/-- **The job asks when the acquisition does.** As long as the attempts are denied and within the timeout,
every turn of the job is an attempt. -/
theorem advance_left (h : a.OnMilliseconds begun timeout) (meets : Meets a answers begun met)
    (denied : Acquisition.Denied answers n) (within : a.InTime timeout n) (fuel : Nat) :
    advance id (left a giveUp k id begun (fuel + 2 * n) met n) (met n) =
      advance id (pursuing a giveUp k fuel (.asking (a.instant begun n))) (met n) := by
  induction n generalizing fuel with
  | zero => simp [left, Acquisition.instant]
  | succ n ih =>
    have denied' : Acquisition.Denied answers n := fun i before => denied i (by omega)
    have within' := within.mono (Nat.le_succ n)
    have pausing := Acquisition.pursued_pausing h denied within
    have again := Acquisition.pursued_asking h denied within
    have early : Clock.reached (called a.attempt (met n)).1.now (a.instant begun (n + 1)) = false := by
      have same : (called a.attempt (met n)).1.now = (met n).now := rfl
      have longer := h.spacing_pos
      rw [same, meets.now, Clock.reached, h.ring_instant, Acquisition.instant_succ]
      exact decide_eq_false (by omega)
    obtain ⟨parked, waits, -, goes⟩ :=
      advance_pausing id a answers giveUp fuel k (congrArg Pursuit.stand pausing) early
    have more : fuel + 2 * (n + 1) = fuel + 2 + 2 * n := by omega
    have rest : left a giveUp k id begun (fuel + 2 * (n + 1)) met (n + 1) = parked := by
      rw [left, more, ih denied' within' (fuel + 2), advance_turn h meets denied' within', waits]
    rw [← Acquisition.pursued_succ] at goes
    rw [rest, goes]
    · exact congrArg (fun p => advance id (pursuing a giveUp k fuel p.stand) _) again
    · rw [meets.now]
      exact (congrArg Pursuit.now again).symm

/-- **The job ends as the acquisition does.** In the turn of the last attempt it starts the job of the guard
and goes on with the number of the guard, or it goes on with the failure and starts no job. -/
theorem advance_left_of_closes (h : a.OnMilliseconds begun timeout) (meets : Meets a answers begun met)
    (denied : Acquisition.Denied answers n) (within : a.InTime timeout n) {outcome : Except Failure Guard}
    (closes : a.Closes answers begun timeout n outcome) (fuel : Nat) :
    advance id (left a giveUp k id begun (fuel + 2 + 2 * n) met n) (met n) =
      match outcome with
      | .ok g =>
        advance id (k (.ok (called a.attempt (met n)).1.nextId)) (holding g (called a.attempt (met n)).1)
      | .error f => advance id (k (.error f)) (called a.attempt (met n)).1 := by
  have ended := congrArg Pursuit.stand
    (Acquisition.pursued_ended h denied within closes (Nat.lt_succ_self (2 * n)))
  rw [advance_left h meets denied within, advance_turn h meets denied within]
  cases outcome with
  | ok g => exact advance_granted ended
  | error f => exact advance_failed ended

end CertWatch.Act
