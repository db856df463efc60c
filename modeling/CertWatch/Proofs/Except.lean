/-!
# Steps that can fail

A sequence of steps succeeds if both parts do, and fails with the failure of the first part that does.
-/

namespace CertWatch
set_option autoImplicit false

variable {ε α β : Type} {x : Except ε α} {f : α → Except ε β}

theorem ok_of_bind {b : β} (ok : (x >>= f) = .ok b) : ∃ a, x = .ok a ∧ f a = .ok b := by
  cases x with
  | error e => cases ok
  | ok a => exact ⟨a, rfl, ok⟩

theorem error_of_bind {e : ε} (failed : (x >>= f) = .error e) : x = .error e ∨ ∃ a, x = .ok a ∧ f a = .error e := by
  cases x with
  | error e' =>
    cases failed
    exact .inl rfl
  | ok a => exact .inr ⟨a, rfl, failed⟩

end CertWatch
