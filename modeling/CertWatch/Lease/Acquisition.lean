import CertWatch.Lease.Guard

/-!
# Acquiring a lease

A lease is asked for until it is granted. Between two attempts there is a pause, and if there is a
deadline no pause goes beyond it. A call that fails ends the acquisition at once.
-/

namespace CertWatch
set_option autoImplicit false

/-- A lease that is wanted. -/
structure Acquisition where
  resource : String
  owner : String
  /-- The length of the lease. -/
  length : Nat
  /-- The pause between two attempts. -/
  retry : Nat
  /-- The instant at which attempts end. -/
  deadline : Option Nat
  deriving DecidableEq, Repr

namespace Acquisition

/-- An acquisition that begins now; attempts end after the timeout, or never. The deadline may lie
beyond what a machine's clock can hold. -/
def start (resource owner : String) (length retry : Nat) (timeout : Option Nat) (now : Nat) :
    Acquisition where
  resource
  owner
  length
  retry
  deadline := timeout.map fun t => now + t

/-- What the answer to an attempt means. -/
inductive Verdict where
  | granted
  /-- Another attempt is made at an instant. -/
  | pause (next : Nat)
  | failed (failure : Failure)
  deriving DecidableEq, Repr

/-- The call of an attempt. -/
def attempt (a : Acquisition) : Call := .tryAcquire a.resource a.owner a.length

/-- Whether a pause that begins now stays within the deadline. -/
def mayPause (a : Acquisition) (now : Nat) : Bool := a.deadline.all fun d => now + a.retry ≤ d

/-- Judges the answer to an attempt. -/
def judge (a : Acquisition) (now : Nat) : Except Failure Bool → Verdict
  | .error f => .failed (.lockAcquisition (a.resource ++ ": " ++ f.message))
  | .ok true => .granted
  | .ok false =>
    if a.mayPause now then .pause (Clock.afterPause now a.retry)
    else .failed (.lockAcquisition (a.resource ++ ": timed out waiting for lease"))

/-- The guard for an attempt that began at `since` and is granted now. -/
def guard (a : Acquisition) (since now : Nat) : Guard :=
  .granted a.resource a.owner a.length since now

/-- How an acquisition stands. -/
inductive Stand where
  /-- Making an attempt that began at an instant. -/
  | asking (since : Nat)
  /-- Pausing until the next attempt. -/
  | pausing (next : Nat)
  | ended (outcome : Except Failure Guard)

/-- How the acquisition stands when the attempt that began at `since` is answered now. -/
def answered (a : Acquisition) (since now : Nat) (answer : Except Failure Bool) : Stand :=
  match a.judge now answer with
  | .granted => .ended (.ok (a.guard since now))
  | .pause next => .pausing next
  | .failed f => .ended (.error f)

end Acquisition
end CertWatch
