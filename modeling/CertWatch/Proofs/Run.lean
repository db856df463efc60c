import Mathlib.Logic.Function.Basic
import Mathlib.Logic.Relation

/-!
# Runs

A run of a system is any number of its steps, one after the other.
-/

namespace CertWatch
set_option autoImplicit false

variable {σ ε : Type} {Step : σ → ε → σ → Prop}

/-- Some step leads from one state to the next, any number of times. -/
def Run (Step : σ → ε → σ → Prop) : σ → σ → Prop := Relation.ReflTransGen fun s s' => ∃ e, Step s e s'

namespace Run

variable {s s' s'' : σ}

theorem refl (s : σ) : Run Step s s := Relation.ReflTransGen.refl

theorem trans (first : Run Step s s') (second : Run Step s' s'') : Run Step s s'' :=
  Relation.ReflTransGen.trans first second

theorem tail {e : ε} (run : Run Step s s') (step : Step s' e s'') : Run Step s s'' :=
  Relation.ReflTransGen.tail run ⟨e, step⟩

theorem single {e : ε} (step : Step s e s') : Run Step s s' := (refl s).tail step

/-- What every step keeps holds to the end of a run. -/
theorem keeps {Inv : σ → Prop} (kept : ∀ s e s', Inv s → Step s e s' → Inv s') (run : Run Step s s')
    (h : Inv s) : Inv s' := by
  induction run with
  | refl => exact h
  | tail _ step ih =>
    obtain ⟨e, step⟩ := step
    exact kept _ e _ ih step

theorem mono {Step' : σ → ε → σ → Prop} (weaker : ∀ s e s', Step s e s' → Step' s e s')
    (run : Run Step s s') : Run Step' s s' := by
  induction run with
  | refl => exact Run.refl s
  | tail _ step ih =>
    obtain ⟨e, step⟩ := step
    exact ih.tail (weaker _ e _ step)

end Run

/-- What holds of all jobs still does after one of them has moved, if it holds of that one. -/
theorem forall_update {α : Type} {jobs : Nat → Option α} {fits : Nat → α → Prop} {id : Nat} {job? : Option α}
    (this : ∀ a, job? = some a → fits id a) (others : ∀ id' a, id' ≠ id → jobs id' = some a → fits id' a) :
    ∀ id' a, Function.update jobs id job? id' = some a → fits id' a := by
  intro id' a here
  by_cases same : id' = id
  · subst same
    exact this a (by simpa using here)
  · exact others id' a same (by simpa [same] using here)

end CertWatch
