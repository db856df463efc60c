import CertWatch.Bytes
import CertWatch.Failure
import CertWatch.Lease.Service

/-!
# The backend

What the service is connected to: a store of values by key, and a lease service. A call names what
is asked for, and its type of answer goes with it. `Backend.perform` answers every call from memory.
-/

namespace CertWatch
set_option autoImplicit false

/-- The kinds of calls. -/
inductive Method where
  | get
  | set
  | list
  | tryAcquire
  | renew
  | release
  deriving DecidableEq, Repr

/-- A call to the store or to the lease service. -/
inductive Call where
  | get (key : String)
  | set (key : String) (value : Bytes)
  | list (pattern : String)
  | tryAcquire (resource owner : String) (length : Nat)
  | renew (resource owner : String) (length : Nat)
  | release (resource owner : String)
  deriving DecidableEq, Repr

namespace Call

/-- The kind of a call. -/
def method : Call → Method
  | get .. => .get
  | set .. => .set
  | list .. => .list
  | tryAcquire .. => .tryAcquire
  | renew .. => .renew
  | release .. => .release

/-- What a call is about: a key, a pattern or a resource. -/
def subject : Call → String
  | get key => key
  | set key _ => key
  | list pattern => pattern
  | tryAcquire resource _ _ => resource
  | renew resource _ _ => resource
  | release resource _ => resource

/-- What a call is answered with. -/
abbrev Answer : Call → Type
  | get _ => Option Bytes
  | set .. => Unit
  | list _ => List String
  | tryAcquire .. => Bool
  | renew .. => Bool
  | release .. => Unit

end Call

/-- The values of a store by key. -/
abbrev Store := Table String Bytes

/-- Whether a key matches a pattern: a trailing star stands for any text, and any other pattern only
for itself. -/
def matchesPattern (pattern key : String) : Bool :=
  match pattern.toList.getLast? with
  | some '*' => pattern.toList.dropLast.isPrefixOf key.toList
  | _ => key = pattern

/-- The keys of a store that match a pattern, in ascending order. -/
def Store.list (s : Store) (pattern : String) : List String :=
  s.keys.filter (matchesPattern pattern)

/-- A store and a lease service in memory. -/
structure Backend where
  store : Store := .empty
  leases : Leases := .empty

namespace Backend

/-- Answers a call at an instant. -/
def perform (b : Backend) (now : Nat) : (c : Call) → Backend × c.Answer
  | .get key => (b, b.store.get? key)
  | .set key value => ({ b with store := b.store.insert key value }, ())
  | .list pattern => (b, b.store.list pattern)
  | .tryAcquire resource owner length =>
    let (leases, granted) := b.leases.tryAcquire now resource owner length
    ({ b with leases := leases }, granted)
  | .renew resource owner length =>
    let (leases, granted) := b.leases.renew now resource owner length
    ({ b with leases := leases }, granted)
  | .release resource owner => ({ b with leases := b.leases.release resource owner }, ())

end Backend
end CertWatch
