import CertWatch.Backend

/-!
# Plans

A plan is work that talks to the backend: it has ended, or it makes a call and goes on with the
answer, or it asks what to do about a value that cannot be opened and goes on with the substitute. A
failure ends a plan unless the plan says otherwise. What answers a plan is left open, so the same
plan can be carried out against a store in memory, a slow one or one that changes between two calls.
-/

namespace CertWatch
set_option autoImplicit false

/-- Work that ends with a failure or with an `α`. -/
inductive Plan (α : Type) where
  /-- Nothing is left to do. -/
  | done (result : Except Failure α)
  /-- Makes a call. -/
  | call (c : Call) (next : Except Failure c.Answer → Plan α)
  /-- The bytes of a key cannot be opened: asks for bytes to take instead. -/
  | consult (key : String) (failure : DecryptFailure) (next : Option Bytes → Plan α)

namespace Plan

variable {α β : Type}

/-- Goes on with the result of a plan, unless it failed. -/
def bind : Plan α → (α → Plan β) → Plan β
  | done (.ok a), k => k a
  | done (.error f), _ => done (.error f)
  | call c next, k => call c fun r => bind (next r) k
  | consult key failure next, k => consult key failure fun r => bind (next r) k

instance : Monad Plan where
  pure a := done (.ok a)
  bind := bind

/-- Makes a call and passes a failure of it on. -/
def ask (c : Call) : Plan c.Answer := call c done

/-- Asks for bytes to take instead of those of a key. -/
def substitute (key : String) (failure : DecryptFailure) : Plan (Option Bytes) :=
  consult key failure pure

/-- Carries out a plan against answers that depend on how many calls went before. -/
def run (answer : Nat → (c : Call) → Except Failure c.Answer)
    (handler : String → DecryptFailure → Option Bytes) : Nat → Plan α → Except Failure α
  | _, done r => r
  | n, call c next => run answer handler (n + 1) (next (answer n c))
  | n, consult key failure next => run answer handler n (next (handler key failure))

end Plan
end CertWatch
