import CertWatch.Clock
import CertWatch.Table

/-!
# The lease service

A lease gives one owner a resource until it expires. An expired lease stays in the table, where it
hinders nobody; only its owner can renew or release a lease that is live.
-/

namespace CertWatch
set_option autoImplicit false

/-- A lease on a resource. -/
structure Lease where
  owner : String
  expiresAt : Nat
  deriving DecidableEq, Repr

/-- A lease is live before the instant of its expiry, and no longer at it. -/
def Lease.isLive (l : Lease) (now : Nat) : Bool := now < l.expiresAt

/-- The leases that were granted, by resource. -/
abbrev Leases := Table String Lease

namespace Leases

/-- The owner of the live lease on a resource. -/
def owner? (ls : Leases) (now : Nat) (resource : String) : Option String :=
  ((ls.get? resource).filter fun l => l.isLive now).map Lease.owner

/-- Whether an owner may take a resource: nobody else has a live lease on it. -/
def allows (ls : Leases) (now : Nat) (resource owner : String) : Bool :=
  (ls.owner? now resource).all (· == owner)

/-- Asks for a lease of some length; the answer is whether it was granted. The instant of its expiry
may lie beyond what a machine's clock can hold. -/
def tryAcquire (ls : Leases) (now : Nat) (resource owner : String) (length : Nat) : Leases × Bool :=
  if ls.allows now resource owner then (ls.insert resource ⟨owner, now + length⟩, true)
  else (ls, false)

/-- Renews the live lease of an owner; the answer is whether there is one. -/
def renew (ls : Leases) (now : Nat) (resource owner : String) (length : Nat) : Leases × Bool :=
  if ls.owner? now resource = some owner then (ls.insert resource ⟨owner, now + length⟩, true)
  else (ls, false)

/-- Gives up the lease of an owner, live or not; leases of others stay. -/
def release (ls : Leases) (resource owner : String) : Leases :=
  match ls.get? resource with
  | some l => if l.owner = owner then ls.erase resource else ls
  | none => ls

end Leases
end CertWatch
