import CertWatch.Proofs.Lease.Service

/-!
# Sequences of requests

Anybody may ask anything of the lease service, at times that do not go back. A lease that was granted at
an instant for some time is its owner's from then on and until that time is over, and nothing but a
request of the owner about that resource makes it end sooner or later. What others ask meanwhile is
refused and leaves no trace, and what is asked about other resources makes no difference at all.
-/

namespace CertWatch
set_option autoImplicit false

/-- What is asked: a call, or who owns a resource. -/
inductive Request where
  | call (c : Call)
  | owner (resource : String)

namespace Request

/-- What a request is answered with. -/
abbrev Answer : Request → Type
  | call c => c.Answer
  | owner _ => Option String

end Request

namespace Leases

variable {ls : Leases} {now t e : Nat} {r owner : String} {length : Nat}

/-- The owner has the resource until an instant, if that is still to come, and in no case for longer. -/
structure EndsAt (ls : Leases) (now : Nat) (r owner : String) (e : Nat) : Prop where
  covers : ls.Covers now r owner e
  most : ∀ e', ls.get? r = some ⟨owner, e'⟩ → e' ≤ e

theorem EndsAt.get? (h : ls.EndsAt now r owner e) (before : now < e) : ls.get? r = some ⟨owner, e⟩ := by
  obtain ⟨e', there, least⟩ := h.covers before
  rw [there, Nat.le_antisymm (h.most e' there) least]

theorem EndsAt.later (h : ls.EndsAt now r owner e) {later : Nat} (le : now ≤ later) :
    ls.EndsAt later r owner e := ⟨h.covers.later le, h.most⟩

end Leases

namespace Backend

variable {b b' : Backend} {now : Nat} {r : String}

/-- Answers a request at an instant. -/
def serve (b : Backend) (now : Nat) : (q : Request) → Backend × q.Answer
  | .call c => b.perform now c
  | .owner resource => (b, b.leases.owner? now resource)

/-- What becomes of a backend when requests are made one after the other. -/
def after (b : Backend) (asked : List (Nat × Request)) : Backend :=
  asked.foldl (fun b d => (b.serve d.1 d.2).1) b

/-! ## One request -/

end Backend
end CertWatch
