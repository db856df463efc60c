import CertWatch.Proofs.Run
import CertWatch.Service

/-!
# The course of a loop

A loop, its handle and all that has happened to it. The task of a loop runs in turns: it begins or
ends a step, or looks up and goes on waiting, and nothing comes between. Everybody else moves between
two turns: the one who has the handle tells the loop to stop, waits for its end or drops the handle,
and time passes. A step may last as long as it likes and end in any way, and a turn may come late.
-/

namespace CertWatch
set_option autoImplicit false

namespace PollLoop

variable (l : PollLoop) (t : Ticker) (now : Nat)

/-- Whether the loop is in a step. -/
def inStep : Bool :=
  match l.phase with
  | .stepping _ => true
  | _ => false

theorem consider_phase (phase : LoopPhase) :
    consider { l with phase } t now = l.consider t now := rfl

variable {l}

@[simp] theorem stop_inStep : l.stop.inStep = l.inStep := rfl

@[simp] theorem orphan_inStep : l.orphan.inStep = l.inStep := rfl

theorem phase_of_inStep (busy : l.inStep = true) : ∃ t, l.phase = .stepping t := by
  unfold inStep at busy
  split at busy
  · exact ⟨_, ‹_›⟩
  · cases busy

theorem isOver_of_inStep (busy : l.inStep = true) : l.isOver = false := by
  obtain ⟨t, phase⟩ := phase_of_inStep busy
  simp only [isOver, phase]

theorem inStep_of_isOver (isOver : l.isOver = true) : l.inStep = false :=
  Bool.eq_false_iff.mpr fun busy => by simp [isOver_of_inStep busy] at isOver

/-- A loop with a period that is between two steps considers what to do when it gets a turn. -/
theorem resume_eq_consider (ticks : 0 < l.period) (idle : l.inStep = false) (alive : l.isOver = false) :
    ∃ t, l.resume now = l.consider t now := by
  cases phase : l.phase with
  | fresh =>
    refine ⟨⟨now, l.period⟩, ?_⟩
    simp only [resume, phase, Nat.ne_of_gt ticks, if_false]
  | waiting t => exact ⟨t, by simp only [resume, phase]⟩
  | stepping t => simp [inStep, phase] at idle
  | ended => simp [isOver, phase] at alive
  | died => simp [isOver, phase] at alive

/-- So does a loop whose step ends. -/
theorem finishStep_eq_consider (busy : l.inStep = true) : ∃ t, l.finishStep now = l.consider t now := by
  obtain ⟨t, phase⟩ := phase_of_inStep busy
  exact ⟨t, by simp only [finishStep, phase]⟩

theorem panic_of_inStep (busy : l.inStep = true) : l.panic = { l with phase := .died } := by
  obtain ⟨t, phase⟩ := phase_of_inStep busy
  simp only [panic, phase]

theorem consider_isOver : (l.consider t now).isOver = l.mustEnd := by
  unfold consider isOver
  by_cases must : l.mustEnd = true
  · simp only [must, if_true]
  · simp only [Bool.not_eq_true] at must
    by_cases due : Clock.reached now t.due = true <;> simp [must, due]

/-- A loop that goes on begins a step, or its tick is still to come. -/
theorem consider_inStep_or (goes : l.mustEnd = false) :
    (l.consider t now).inStep = true ∨
      ((l.consider t now).phase = .waiting t ∧ now < Clock.ring t.due) := by
  by_cases due : Clock.reached now t.due = true
  · exact .inl (by simp [consider, inStep, goes, due])
  · refine .inr ⟨by simp [consider, goes, due], ?_⟩
    simpa [Clock.reached] using due

theorem outcome_eq_ok_iff : l.outcome = .ok () ↔ l.phase ≠ .died := by
  unfold outcome
  cases l.phase <;> simp

theorem joined_singleton {r : Except Failure Unit} :
    joined [l] = some r ↔ l.isOver = true ∧ r = l.outcome := by
  cases isOver : l.isOver with
  | false => simp [joined, isOver]
  | true => cases outcome : l.outcome <;> simp [joined, isOver, outcome, eq_comm]

end PollLoop

/-- What happens to a loop. -/
inductive Happening where
  /-- A step begins. -/
  | began
  | ended (how : StepEnd)
  /-- A line is written to the log. -/
  | noted (n : Notice)
  /-- The loop is told to stop. -/
  | stopped
  /-- The handle is dropped. -/
  | dropped
  /-- The task of the loop is over. -/
  | quit
  /-- The one who waits for the end of the loop is told so. -/
  | returned (r : Except Failure Unit)

/-- What a turn of a loop comes to, as the loop is left. -/
def PollLoop.sequel (l : PollLoop) : List Happening :=
  match l.phase with
  | .stepping _ => [.began]
  | .ended | .died => [.quit]
  | _ => []

/-- What became of the handle of a loop. -/
inductive LoopHandle where
  | kept
  /-- Somebody waits for the end of the loop. -/
  | awaited
  | gone
  deriving DecidableEq

/-- A loop, its handle and what has happened, in order. -/
structure Course where
  loop : PollLoop
  handle : LoopHandle := .kept
  past : List Happening := []

namespace Course

/-- A loop that has just been started. -/
def start (name : String) (period : Nat) : Course := { loop := { name, period } }

variable (c : Course)

/-- The loop had a turn that left it so, and in which this happened first. -/
def turn (l : PollLoop) (first : List Happening) : Course :=
  { c with loop := l, past := c.past ++ first ++ l.sequel }

/-- The loop is told to stop. -/
def stop : Course := { c with loop := c.loop.stop, past := c.past ++ [.stopped] }

/-- The handle is dropped. -/
def drop : Course := { c with loop := c.loop.orphan, handle := .gone, past := c.past ++ [.dropped] }

/-- Who or what moves. -/
inductive Event where
  | woke
  | finished (how : StepEnd)
  | stopped
  | dropped
  | awaited
  | returned (r : Except Failure Unit)

/-- The moves of a loop and of the one who has its handle, at an instant. -/
inductive Move (now : Nat) : Course → Event → Course → Prop where
  /-- The task gets a turn between two steps. -/
  | wake {c : Course} (idle : c.loop.inStep = false) (alive : c.loop.isOver = false) :
      Move now c .woke (c.turn (c.loop.resume now) [])
  | finish {c : Course} (r : Except Failure Unit) (busy : c.loop.inStep = true) :
      Move now c (.finished (.result r))
        (c.turn (c.loop.finishStep now) (.ended (.result r) :: (c.loop.notices r).map .noted))
  | panic {c : Course} (busy : c.loop.inStep = true) :
      Move now c (.finished .panic) (c.turn c.loop.panic [.ended .panic])
  | stop {c : Course} (kept : c.handle = .kept) : Move now c .stopped c.stop
  /-- The handle is dropped, also by one who waits no longer. -/
  | drop {c : Course} (had : c.handle ≠ .gone) : Move now c .dropped c.drop
  /-- Somebody stops the loop and waits for its end. -/
  | await {c : Course} (kept : c.handle = .kept) :
      Move now c .awaited { c.stop with handle := .awaited }
  | return {c : Course} {r : Except Failure Unit} (awaited : c.handle = .awaited)
      (told : PollLoop.joined [c.loop] = some r) :
      Move now c (.returned r) { c with handle := .gone, past := c.past ++ [.returned r] }

/-- The steps of a loop on a clock: it moves, or time passes. -/
inductive Step : Nat × Course → Option Event → Nat × Course → Prop where
  | pass {now : Nat} {c : Course} : Step (now, c) none (now + 1, c)
  | move {now : Nat} {c c' : Course} {e : Event} (move : Move now c e c') :
      Step (now, c) (some e) (now, c')

end Course
end CertWatch
