import Mathlib.Data.List.Forall2
import CertWatch.Plan

/-!
# How plans end

`Ends p r` says that the plan `p` ends with `r` for some answers to its calls, each answer being free:
nothing is assumed about what answers them, so whatever holds of every end holds for a store that
changes between two calls, lists what it likes or fails at any point.
-/

namespace CertWatch
set_option autoImplicit false

namespace Plan

variable {α β : Type}

/-- The plan ends with a result, for some answers. -/
inductive Ends : Plan α → Except Failure α → Prop where
  | done (r : Except Failure α) : Ends (.done r) r
  | call {c : Call} {next : Except Failure c.Answer → Plan α} {r : Except Failure α}
      (answer : Except Failure c.Answer) (rest : Ends (next answer) r) : Ends (.call c next) r
  | consult {key : String} {failure : DecryptFailure} {next : Option Bytes → Plan α}
      {r : Except Failure α} (bytes : Option Bytes) (rest : Ends (next bytes) r) :
      Ends (.consult key failure next) r

theorem bind_pure_ok (p : Plan α) : p.bind (fun a => .done (.ok a)) = p := by
  induction p with
  | done r => cases r <;> rfl
  | call c next ih => exact congrArg (call c) (funext ih)
  | consult key failure next ih => exact congrArg (consult key failure) (funext ih)

theorem bind_assoc {γ : Type} (p : Plan α) (k : α → Plan β) (l : β → Plan γ) :
    (p.bind k).bind l = p.bind fun a => (k a).bind l := by
  induction p with
  | done r => cases r <;> rfl
  | call c next ih => exact congrArg (call c) (funext ih)
  | consult key failure next ih => exact congrArg (consult key failure) (funext ih)

instance : LawfulMonad Plan := .mk' Plan bind_pure_ok (fun _ _ => rfl) bind_assoc

theorem ends_pure_iff {a : α} {r : Except Failure α} : Ends (pure a) r ↔ r = .ok a := by
  constructor
  · rintro ⟨⟩; rfl
  · rintro rfl; exact .done _

/-- A composed plan that succeeds has succeeded in both of its parts. -/
theorem Ends.of_bind {p : Plan α} {k : α → Plan β} {b : β} (h : Ends (p >>= k) (.ok b)) :
    ∃ a, Ends p (.ok a) ∧ Ends (k a) (.ok b) := by
  induction p with
  | done r =>
    cases r with
    | ok a => exact ⟨a, .done _, h⟩
    | error f => cases h
  | call c next ih =>
    obtain _ | ⟨answer, rest⟩ := h
    obtain ⟨a, first, second⟩ := ih answer rest
    exact ⟨a, .call answer first, second⟩
  | consult key failure next ih =>
    obtain _ | _ | ⟨bytes, rest⟩ := h
    obtain ⟨a, first, second⟩ := ih bytes rest
    exact ⟨a, .consult bytes first, second⟩

theorem Ends.of_map {p : Plan α} {f : α → β} {b : β}
    (h : Ends (do return f (← p)) (.ok b)) : ∃ a, Ends p (.ok a) ∧ b = f a := by
  obtain ⟨a, first, second⟩ := h.of_bind
  exact ⟨a, first, by simpa using ends_pure_iff.1 second⟩

/-- A plan for each element of a list: every result is one of the plan of its element. -/
theorem Ends.of_mapM {f : α → Plan β} {as : List α} {bs : List β} (h : Ends (as.mapM f) (.ok bs)) :
    List.Forall₂ (fun a b => Ends (f a) (.ok b)) as bs := by
  induction as generalizing bs with
  | nil =>
    have : bs = [] := by simpa using ends_pure_iff.1 h
    subst this
    exact .nil
  | cons a rest ih =>
    rw [List.mapM_cons] at h
    obtain ⟨b, first, h⟩ := h.of_bind
    obtain ⟨more, second, h⟩ := h.of_bind
    have : bs = b :: more := by simpa using ends_pure_iff.1 h
    subst this
    exact .cons first (ih second)

theorem Ends.exists_of_mem_mapM {f : α → Plan β} {as : List α} {bs : List β}
    (h : Ends (as.mapM f) (.ok bs)) {b : β} (among : b ∈ bs) : ∃ a ∈ as, Ends (f a) (.ok b) := by
  have each := Ends.of_mapM h
  clear h
  induction each with
  | nil => cases among
  | @cons a b' as bs first _ ih =>
    rcases List.mem_cons.1 among with rfl | later
    · exact ⟨a, List.mem_cons_self, first⟩
    · obtain ⟨a', listed, ends⟩ := ih later
      exact ⟨a', List.mem_cons_of_mem a listed, ends⟩

/-! ## Carrying a plan out -/

section Run

variable {answer : Nat → (c : Call) → Except Failure c.Answer}
  {handler : String → DecryptFailure → Option Bytes}

theorem ends_run (p : Plan α) (n : Nat) : p.Ends (p.run answer handler n) := by
  induction p generalizing n with
  | done r => exact .done r
  | call c next ih => exact .call _ (ih _ _)
  | consult key failure next ih => exact .consult _ (ih _ _)

/-- A composed plan is carried out part by part, the second part from whatever call comes next. -/
theorem exists_run_bind (p : Plan α) (k : α → Plan β) (n : Nat) :
    ∃ m, n ≤ m ∧ (p >>= k).run answer handler n =
      (p.run answer handler n).bind fun a => (k a).run answer handler m := by
  induction p generalizing n with
  | done r => cases r <;> exact ⟨n, Nat.le_refl n, rfl⟩
  | call c next ih =>
    obtain ⟨m, later, same⟩ := ih (answer n c) (n + 1)
    exact ⟨m, by omega, same⟩
  | consult key failure next ih => exact ih (handler key failure) n

variable (answer handler) in
/-- The plan ends with `a`, whenever it begins. -/
def Yields (p : Plan α) (a : α) : Prop := ∀ n, p.run answer handler n = .ok a

theorem yields_pure (a : α) : Yields answer handler (pure a) a := fun _ => rfl

theorem Yields.bind {p : Plan α} {k : α → Plan β} {a : α} {b : β} (first : Yields answer handler p a)
    (second : Yields answer handler (k a) b) : Yields answer handler (p >>= k) b := by
  intro n
  obtain ⟨m, -, same⟩ := @exists_run_bind _ _ answer handler p k n
  rw [same, first n]
  exact second m

theorem Yields.map {p : Plan α} {a : α} (h : Yields answer handler p a) (f : α → β) :
    Yields answer handler (do return f (← p)) (f a) := h.bind (yields_pure (f a))

theorem Yields.mapM {f : α → Plan β} {g : α → β} {as : List α}
    (each : ∀ a ∈ as, Yields answer handler (f a) (g a)) :
    Yields answer handler (as.mapM f) (as.map g) := by
  induction as with
  | nil => exact yields_pure []
  | cons a rest ih =>
    obtain ⟨first, more⟩ := List.forall_mem_cons.1 each
    rw [List.mapM_cons]
    exact first.bind ((ih more).map (g a :: ·))

end Run

/-! ## Failures that are passed on -/

/-- The plan makes calls of some kind only, and fails only by passing the failure of one of them on. -/
inductive PassesOn (calls : Call → Prop) : Plan α → Prop where
  | done (a : α) : PassesOn calls (.done (.ok a))
  | call {c : Call} {next : Except Failure c.Answer → Plan α} (made : calls c)
      (fails : ∀ f, next (.error f) = .done (.error f))
      (goesOn : ∀ a, PassesOn calls (next (.ok a))) : PassesOn calls (.call c next)
  | consult {key : String} {failure : DecryptFailure} {next : Option Bytes → Plan α}
      (goesOn : ∀ bytes, PassesOn calls (next bytes)) : PassesOn calls (.consult key failure next)

section PassesOn

variable {calls : Call → Prop}

theorem passesOn_ask {c : Call} (made : calls c) : PassesOn calls (ask c) :=
  .call made (fun _ => rfl) .done

theorem PassesOn.bind {p : Plan α} {k : α → Plan β} (first : PassesOn calls p)
    (second : ∀ a, PassesOn calls (k a)) : PassesOn calls (p >>= k) := by
  induction first with
  | done a => exact second a
  | call made fails _ ih =>
    refine .call made (fun f => ?_) ih
    rw [fails]
    rfl
  | consult _ ih => exact .consult ih

theorem PassesOn.map {p : Plan α} (h : PassesOn calls p) (f : α → β) :
    PassesOn calls (do return f (← p)) := h.bind fun a => .done (f a)

theorem PassesOn.mapM {f : α → Plan β} (each : ∀ a, PassesOn calls (f a)) (as : List α) :
    PassesOn calls (as.mapM f) := by
  induction as with
  | nil => exact .done []
  | cons a rest ih =>
    rw [List.mapM_cons]
    exact (each a).bind fun b => ih.map (b :: ·)

/-- A plan that passes failures on fails as one of its calls did. -/
theorem PassesOn.exists_failed_call {p : Plan α} (h : PassesOn calls p)
    {answer : Nat → (c : Call) → Except Failure c.Answer}
    {handler : String → DecryptFailure → Option Bytes} {n : Nat} {f : Failure}
    (failed : p.run answer handler n = .error f) :
    ∃ m c, n ≤ m ∧ calls c ∧ answer m c = .error f := by
  induction h generalizing n with
  | done a => cases failed
  | @call c next made fails _ ih =>
    rw [run] at failed
    cases answered : answer n c with
    | error g =>
      rw [answered, fails] at failed
      cases failed
      exact ⟨n, c, Nat.le_refl n, made, answered⟩
    | ok a =>
      rw [answered] at failed
      obtain ⟨m, d, later, kind, failed⟩ := ih a failed
      exact ⟨m, d, by omega, kind, failed⟩
  | consult _ ih => exact ih _ failed

end PassesOn

end Plan
end CertWatch
