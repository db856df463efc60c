import Mathlib.Logic.Function.Basic
import CertWatch.Lease.Acquisition
import CertWatch.Proofs.Lease.Service
import CertWatch.Proofs.Run

/-!
# Tenants of leases

Any number of tenants, each of which asks for a lease under an owner of its own, renews it and gives it
up. Every call takes effect at the service in one instant, between its beginning and its answer: it may
take long on either way, its answer may be a failure although it took effect, and a call that nobody
waits for any more may still take effect later. Time goes by one unit at a time, so every instant is a
state of the system.
-/

namespace CertWatch
set_option autoImplicit false

/-- How far a tenant has come. While a call is under way, `done?` says what the service has done about
it: nothing as yet, or what it will be answered. -/
inductive Tenant where
  /-- Has asked for nothing. -/
  | absent
  /-- Asks for a lease; the attempt began at an instant. -/
  | asking (wanted : Acquisition) (since : Nat) (done? : Option Bool)
  /-- Pauses until the next attempt. -/
  | pausing (wanted : Acquisition) (next : Nat)
  /-- Has a guard, which may be asking for a renewal. -/
  | holding (guard : Guard) (done? : Option Bool)
  /-- Has released its guard and waits until the lease is given up. -/
  | leaving (guard : Guard) (done? : Option Unit)
  | gone

namespace Tenant

/-- The call under way, as long as it has not taken effect. -/
def stray : Tenant → List Call
  | asking a _ none => [a.attempt]
  | holding g none =>
    match g.renewal with
    | .asking .. => [g.renewCall]
    | _ => []
  | leaving g none => [g.releaseCall]
  | _ => []

/-- The guard of a tenant that has one. -/
def guard? : Tenant → Option Guard
  | holding g _ => some g
  | leaving g _ => some g
  | _ => none

/-- Whether the tenant's guard reports that it holds the lease on a resource. -/
def Holds (t : Tenant) (now : Nat) (r : String) : Prop :=
  ∃ g, t.guard? = some g ∧ g.resource = r ∧ g.isHeld now = true

/-- Whether the tenant was granted the lease on a resource, and has neither released it nor come to
another end. -/
def Granted (t : Tenant) (r : String) : Prop :=
  match t with
  | asking a _ (some true) => a.resource = r
  | holding g _ => g.resource = r
  | _ => False

/-- Whether the tenant will never again have a lease. -/
def Over (t : Tenant) : Prop :=
  match t with
  | leaving .. => True
  | gone => True
  | _ => False

/-- What is left of an acquisition after the answer to an attempt. -/
def judged (a : Acquisition) (since now : Nat) (answer : Except Failure Bool) : Tenant :=
  match a.judge now answer with
  | .granted => holding (a.guard since now) none
  | .pause next => pausing a next
  | .failed _ => gone

end Tenant

/-- Whether an answer can be that of a call: a result is what the service has done, and a failure can
come at any time. -/
def Told {α : Type} (done? : Option α) : Except Failure α → Prop
  | .ok a => done? = some a
  | .error _ => True

/-- The service, its tenants, and the calls under way that nobody waits for. -/
structure Tenancy where
  now : Nat
  backend : Backend
  tenants : Nat → Tenant := fun _ => .absent
  loose : List Call := []

namespace Tenancy

variable (s : Tenancy)

/-- The owner of the live lease on a resource. -/
def owner? (r : String) : Option String := s.backend.leases.owner? s.now r

/-- A call takes effect. -/
def perform (c : Call) : Tenancy := { s with backend := (s.backend.perform s.now c).1 }

/-- What a call would be answered now. -/
def answer (c : Call) : c.Answer := (s.backend.perform s.now c).2

/-- A tenant goes on, and nobody waits for the call that it had under way. -/
def put (n : Nat) (t : Tenant) : Tenancy :=
  { s with
    tenants := Function.update s.tenants n t
    loose := s.loose ++ (s.tenants n).stray }

/-- The service has dealt with the call under way of a tenant. -/
def mark (n : Nat) (t : Tenant) : Tenancy := { s with tenants := Function.update s.tenants n t }

/-- What happens to tenants. -/
inductive Event where
  | passed
  | asked (n : Nat)
  | attempted (n : Nat)
  | judged (n : Nat) (answer : Except Failure Bool)
  | resumed (n : Nat)
  | calledOff (n : Nat)
  | ticked (n : Nat)
  | renewed (n : Nat)
  | heard (n : Nat) (answer : Except Failure Bool)
  | released (n : Nat)
  | dropped (n : Nat)
  | returned (n : Nat)
  | finished (n : Nat) (answer : Except Failure Unit)
  | landed (c : Call)
  | outside (c : Call)

variable {s}

/-- The steps of tenants, of the service and of whoever else uses it. -/
inductive Step (owner : Nat → String) : Tenancy → Event → Tenancy → Prop where
  | pass {s : Tenancy} : Step owner s .passed { s with now := s.now + 1 }
  /-- An acquisition begins. -/
  | ask {s : Tenancy} (n : Nat) {a : Acquisition} (new : s.tenants n = .absent)
      (own : a.owner = owner n) : Step owner s (.asked n) (s.put n (.asking a s.now none))
  | attempt {s : Tenancy} (n : Nat) {a : Acquisition} {since : Nat}
      (here : s.tenants n = .asking a since none) :
      Step owner s (.attempted n)
        ((s.perform a.attempt).mark n (.asking a since (some (s.answer a.attempt))))
  | judge {s : Tenancy} (n : Nat) {a : Acquisition} {since : Nat} {done? : Option Bool}
      (here : s.tenants n = .asking a since done?) (r : Except Failure Bool) (told : Told done? r) :
      Step owner s (.judged n r) (s.put n (.judged a since s.now r))
  | resume {s : Tenancy} (n : Nat) {a : Acquisition} {next : Nat}
      (here : s.tenants n = .pausing a next) (due : Clock.reached s.now next = true) :
      Step owner s (.resumed n) (s.put n (.asking a s.now none))
  /-- An acquisition is called off. -/
  | callOff {s : Tenancy} (n : Nat)
      (here : ∃ a since done?, s.tenants n = .asking a since done? ∨ s.tenants n = .pausing a since) :
      Step owner s (.calledOff n) (s.put n .gone)
  /-- A guard asks for a renewal. -/
  | tick {s : Tenancy} (n : Nat) {g : Guard} {done? : Option Bool} {due : Nat}
      (here : s.tenants n = .holding g done?) (isDue : g.due? = some due)
      (rung : Clock.reached s.now due = true) :
      Step owner s (.ticked n) (s.mark n (.holding (g.tick s.now) none))
  | renew {s : Tenancy} (n : Nat) {g : Guard} {ticker : Ticker} {since : Nat}
      (here : s.tenants n = .holding g none) (asking : g.renewal = .asking ticker since) :
      Step owner s (.renewed n)
        ((s.perform g.renewCall).mark n (.holding g (some (s.answer g.renewCall))))
  | hear {s : Tenancy} (n : Nat) {g : Guard} {done? : Option Bool} {ticker : Ticker} {since : Nat}
      (here : s.tenants n = .holding g done?) (asking : g.renewal = .asking ticker since)
      (r : Except Failure Bool) (told : Told done? r) :
      Step owner s (.heard n r) (s.put n (.holding (g.answered s.now r).1 none))
  /-- A guard is released, and asks for its lease to be given up. -/
  | release {s : Tenancy} (n : Nat) {g : Guard} {done? : Option Bool}
      (here : s.tenants n = .holding g done?) :
      Step owner s (.released n) (s.put n (.leaving g.release none))
  /-- A guard is dropped: it asks for its lease to be given up and waits for nothing, or there is
  nobody left who could ask. -/
  | drop {s : Tenancy} (n : Nat) {g : Guard} {done? : Option Bool}
      (here : s.tenants n = .holding g done?) {last : List Call}
      (lastOnes : last = g.dropCall?.toList ∨ last = []) :
      Step owner s (.dropped n) { s.put n .gone with loose := (s.put n .gone).loose ++ last }
  /-- A lease is given up. -/
  | giveUp {s : Tenancy} (n : Nat) {g : Guard} (here : s.tenants n = .leaving g none) :
      Step owner s (.returned n) ((s.perform g.releaseCall).mark n (.leaving g (some ())))
  | finish {s : Tenancy} (n : Nat) {g : Guard} {done? : Option Unit}
      (here : s.tenants n = .leaving g done?) (r : Except Failure Unit) (told : Told done? r) :
      Step owner s (.finished n r) (s.put n .gone)
  /-- A call that nobody waits for takes effect. -/
  | land {s : Tenancy} {c : Call} (loose : c ∈ s.loose) :
      Step owner s (.landed c) { s.perform c with loose := s.loose.erase c }
  /-- Somebody else makes a call. -/
  | outside {s : Tenancy} {c : Call} (other : ∀ n, c.lessee? ≠ some (owner n)) :
      Step owner s (.outside c) (s.perform c)

end Tenancy
end CertWatch
