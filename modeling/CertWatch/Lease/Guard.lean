import CertWatch.Backend
import CertWatch.Notice
import CertWatch.Text.Quoted

/-!
# Lease guards

A guard stands for a lease that was granted. It knows an instant until which the lease lasts for
sure, counted from the beginning of the last call that granted or renewed it, so the service never
lets the lease expire earlier. Three times in the length of a lease the guard asks for a renewal,
until it is released, dropped, or knows that the lease is lost.
-/

namespace CertWatch
set_option autoImplicit false

/-- How the renewal of a lease stands. -/
inductive Renewal where
  /-- Waiting for the next tick. -/
  | waiting (ticker : Ticker)
  /-- A renewal that was asked for at an instant is not answered yet. -/
  | asking (ticker : Ticker) (since : Nat)
  /-- No renewal will be asked for. -/
  | ended
  deriving DecidableEq, Repr

/-- A granted lease. -/
structure Guard where
  resource : String
  owner : String
  /-- The length that was asked for. -/
  length : Nat
  /-- Until when the lease lasts for sure. -/
  expiresAt : Nat
  lost : Bool := false
  released : Bool := false
  renewal : Renewal
  deriving DecidableEq, Repr

namespace Guard

/-- The time from one renewal to the next. -/
def period (length : Nat) : Nat := max (length / 3) Clock.millisecond

/-- The guard for a lease that was asked for at `since` and granted now. Neither the end of the lease
nor the first tick is bounded by what a machine's clock can hold. -/
def granted (resource owner : String) (length since now : Nat) : Guard where
  resource
  owner
  length
  expiresAt := since + length
  renewal := .waiting ⟨now + period length, period length⟩

/-- Whether the lease is held as far as the guard knows. -/
def isHeld (g : Guard) (now : Nat) : Bool := !g.released && !g.lost && now < g.expiresAt

/-- The failure to hold a lease. -/
def lossOf (resource : String) : Failure := .lockAcquisition (resource ++ ": lease lost while held")

/-- Fails unless the lease is held. -/
def ensureHeld (g : Guard) (now : Nat) : Except Failure Unit :=
  if g.isHeld now then .ok () else .error (lossOf g.resource)

/-- The call for a renewal. -/
def renewCall (g : Guard) : Call := .renew g.resource g.owner g.length

/-- The call that gives the lease up. -/
def releaseCall (g : Guard) : Call := .release g.resource g.owner

/-- When the next renewal is due. -/
def due? (g : Guard) : Option Nat :=
  match g.renewal with
  | .waiting t => some t.due
  | _ => none

/-- Takes a tick: a renewal is asked for now. -/
def tick (g : Guard) (now : Nat) : Guard :=
  match g.renewal with
  | .waiting t => { g with renewal := .asking (t.take now) now }
  | _ => g

/-- The answer to a renewal: a granted one extends the lease from when it was asked for, a refused
one means it is lost, and after a failure there is another try unless the lease has run out
meanwhile. -/
def answered (g : Guard) (now : Nat) (answer : Except Failure Bool) : Guard × List Notice :=
  match g.renewal with
  | .asking t since =>
    match answer with
    | .ok true => ({ g with expiresAt := since + g.length, renewal := .waiting t }, [])
    | .ok false =>
      ({ g with lost := true, renewal := .ended }, [.error ("Lost lease on lock " ++ g.resource)])
    | .error f =>
      if g.expiresAt ≤ now then
        ({ g with lost := true, renewal := .ended },
          [.error
            ("Lease on lock " ++ g.resource ++ " expired, last renewal failed: " ++ f.message)])
      else
        ({ g with renewal := .waiting t },
          [.warning ("Failed to renew lock " ++ g.resource ++ ": " ++ f.message)])
  | _ => (g, [])

/-- Ends the renewal. -/
def stop (g : Guard) : Guard := { g with renewal := .ended }

/-- Marks the guard as released; the lease is given up by `releaseCall`. -/
def release (g : Guard) : Guard := { g.stop with released := true }

/-- The call that dropping the guard makes: none if it was released before. -/
def dropCall? (g : Guard) : Option Call := if g.released then none else some g.releaseCall

/-- The notice when a dropped guard could not give its lease up. -/
def dropFailed (g : Guard) (f : Failure) : Notice :=
  .warning ("Failed to release dropped lock " ++ g.resource ++ ": " ++ f.message)

/-- The notice when a guard is dropped where nothing can be called any more. -/
def orphaned (g : Guard) : Notice :=
  .warning ("Lock " ++ g.resource ++ " dropped outside a runtime; lease will expire")

/-- What a developer sees of a guard, with a given text in place of its owner. -/
def summary (g : Guard) (now : Nat) (owner : String) : String :=
  s!"LeaseGuard \x7b resource: {Text.quoted g.resource}, owner: {Text.quoted owner}, " ++
    s!"held: {g.isHeld now}, released: {g.released} \x7d"

end Guard
end CertWatch
