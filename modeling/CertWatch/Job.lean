import CertWatch.Clock

/-!
# Jobs

A job is work on a shared state that is carried out in turns: between two points at which it waits,
nobody else acts. It waits for a condition on the state, for an instant, or for the end of another
job. The work itself is data, so what a job would do next can be asked without doing it.
-/

namespace CertWatch
set_option autoImplicit false

/-- Work on a state `σ` that ends with a `ρ`. -/
inductive Job (σ ρ : Type) : Type where
  | finish (result : ρ)
  /-- Looks at the time, its own number and the state. -/
  | look (next : Nat → Nat → σ → Job σ ρ)
  /-- Replaces the state. -/
  | become (state : σ) (next : Job σ ρ)
  /-- Waits until a condition holds or an instant is reached, whichever comes first. -/
  | park (due : Option Nat) (condition : σ → Bool) (next : Job σ ρ)
  /-- Starts another job, and learns its number. -/
  | fork (child : Job σ ρ) (next : Nat → Job σ ρ)
  /-- Waits for the end of a job; there is no result if it was called off. -/
  | await (id : Nat) (next : Option ρ → Job σ ρ)
  /-- Asks whether a job is over. -/
  | isOver (id : Nat) (next : Bool → Job σ ρ)
  /-- Calls a job off, unless it is over. -/
  | abort (id : Nat) (next : Job σ ρ)
  /-- Does work of its own until an instant at most; there is no result if that was too short. -/
  | limit (due : Nat) (inner : Job σ ρ) (next : Option ρ → Job σ ρ)

/-- A part of a job that goes on with an `α`. -/
def Flow (σ ρ α : Type) : Type := (α → Job σ ρ) → Job σ ρ

namespace Flow

variable {σ ρ α : Type}

instance : Monad (Flow σ ρ) where
  pure a := fun k => k a
  bind f g := fun k => f fun a => g a k

/-- The flow as a whole job. -/
def job (f : Flow σ ρ ρ) : Job σ ρ := f .finish

/-- The time. -/
def now : Flow σ ρ Nat := fun k => .look fun now _ _ => k now

/-- The number of the job. -/
def self : Flow σ ρ Nat := fun k => .look fun _ self _ => k self

/-- A view of the state. -/
def get (f : σ → α) : Flow σ ρ α := fun k => .look fun _ _ s => k (f s)

/-- Changes the state and answers something. -/
def update (f : σ → σ × α) : Flow σ ρ α := fun k => .look fun _ _ s => .become (f s).1 (k (f s).2)

/-- Changes the state. -/
def edit (f : σ → σ) : Flow σ ρ Unit := fun k => .look fun _ _ s => .become (f s) (k ())

/-- Waits until a condition holds. -/
def waitUntil (condition : σ → Bool) : Flow σ ρ Unit := fun k => .park none condition (k ())

/-- Waits until a condition holds or an instant is reached. -/
def waitUntilDue (due : Option Nat) (condition : σ → Bool) : Flow σ ρ Unit :=
  fun k => .park due condition (k ())

/-- Waits for an instant. -/
def sleepUntil (due : Nat) : Flow σ ρ Unit := fun k => .park (some due) (fun _ => false) (k ())

/-- Pauses for some time. -/
def sleep (length : Nat) : Flow σ ρ Unit := do sleepUntil (Clock.afterPause (← now) length)

/-- Starts a job. -/
def fork (child : Flow σ ρ ρ) : Flow σ ρ Nat := fun k => .fork child.job k

/-- Waits for the end of a job. -/
def await (id : Nat) : Flow σ ρ (Option ρ) := fun k => .await id k

/-- Whether a job is over. -/
def isOver (id : Nat) : Flow σ ρ Bool := fun k => .isOver id k

/-- Calls a job off. -/
def abort (id : Nat) : Flow σ ρ Unit := fun k => .abort id (k ())

/-- Does work until an instant at most. -/
def limit (due : Nat) (inner : Flow σ ρ ρ) : Flow σ ρ (Option ρ) := fun k => .limit due inner.job k

/-- Goes from state to state until there is an answer, at most as often as the fuel says. -/
def iterate {β : Type} (step : β → Flow σ ρ (β ⊕ α)) (giveUp : α) : Nat → β → Flow σ ρ α
  | 0, _ => pure giveUp
  | fuel + 1, b => do
    match ← step b with
    | .inl b => iterate step giveUp fuel b
    | .inr a => pure a

end Flow
end CertWatch
