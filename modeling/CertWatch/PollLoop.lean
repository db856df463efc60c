import CertWatch.Clock
import CertWatch.Failure
import CertWatch.Notice

/-!
# Poll loops

A loop carries out one step at every tick, the first one at once. It asks whether to go on between
two steps only, so a step that has begun is always carried out to its end, and no two steps of a
loop overlap. A failed step is reported and does not end the loop; only being stopped, losing its
handle or a panic does.
-/

namespace CertWatch
set_option autoImplicit false

/-- How a step of a loop ends. -/
inductive StepEnd where
  | result (r : Except Failure Unit)
  | panic

/-- How far a loop has come. -/
inductive LoopPhase where
  /-- Not begun. -/
  | fresh
  /-- Between two steps. -/
  | waiting (ticker : Ticker)
  /-- In a step. -/
  | stepping (ticker : Ticker)
  | ended
  /-- Ended by a panic. -/
  | died
  deriving DecidableEq, Repr

/-- A loop over a named step. -/
structure PollLoop where
  name : String
  /-- The time from one step to the next. -/
  period : Nat
  phase : LoopPhase := .fresh
  /-- Whether the loop was told to stop. -/
  stopped : Bool := false
  /-- Whether nobody has a handle of the loop any more. -/
  orphaned : Bool := false
  deriving DecidableEq, Repr

namespace PollLoop

/-- Whether the loop has to end at the next occasion. -/
def mustEnd (l : PollLoop) : Bool := l.stopped || l.orphaned

/-- Whether the loop is over. -/
def isOver (l : PollLoop) : Bool :=
  match l.phase with
  | .ended | .died => true
  | _ => false

/-- Whether the loop is alive and was not told to stop. -/
def isRunning (l : PollLoop) : Bool := !l.stopped && !l.isOver

/-- Tells the loop to stop. -/
def stop (l : PollLoop) : PollLoop := { l with stopped := true }

/-- Takes the handle away. -/
def orphan (l : PollLoop) : PollLoop := { l with orphaned := true }

/-- Between two steps: ends, begins a step that is due, or waits. -/
def consider (l : PollLoop) (t : Ticker) (now : Nat) : PollLoop :=
  { l with phase :=
      if l.mustEnd then .ended
      else if Clock.reached now t.due then .stepping (t.take now)
      else .waiting t }

/-- Lets the loop go on. A loop without a period cannot tick, and panics when it begins. -/
def resume (l : PollLoop) (now : Nat) : PollLoop :=
  match l.phase with
  | .fresh => if l.period = 0 then { l with phase := .died } else l.consider ⟨now, l.period⟩ now
  | .waiting t => l.consider t now
  | _ => l

/-- Ends the step that the loop is in. -/
def finishStep (l : PollLoop) (now : Nat) : PollLoop :=
  match l.phase with
  | .stepping t => l.consider t now
  | _ => l

/-- The step that the loop is in panics. -/
def panic (l : PollLoop) : PollLoop :=
  match l.phase with
  | .stepping _ => { l with phase := .died }
  | _ => l

/-- When the next step is due. -/
def due? (l : PollLoop) : Option Nat :=
  match l.phase with
  | .waiting t => some t.due
  | _ => none

/-- What is reported of the outcome of a step: a failure, unless it is a cancellation. -/
def notices (l : PollLoop) {α : Type} : Except Failure α → List Notice
  | .ok _ => []
  | .error f =>
    if f.isCancellation then []
    else [.warning s!"{l.name} poll step failed: {f.message} (cause: {f.rootMessage})"]

/-- What the one who waits for the end of the loop is told. Of a panic the text says only which loop
it ended; what the runtime has to say about it would stand behind that. -/
def outcome (l : PollLoop) : Except Failure Unit :=
  match l.phase with
  | .died => .error (.other s!"{l.name} poll loop failed")
  | _ => .ok ()

end PollLoop
end CertWatch
