import Mathlib.Logic.Relation
import CertWatch.Bus

/-!
# Carrying out deeds

What a listener does is told here one deed at a time, and without the fuel that bounds how deep
publishing nests: `Publishes` and `Performs` say what a publish and a listener's call come to if all
publishing in them ends. A panic is no deed that is carried out. A call that panics has done all that
stood before the panic, and nothing else (`performs_iff`).
-/

namespace CertWatch.Bus
set_option autoImplicit false

variable {ε : Type} {b b' b₁ : Bus ε} {deed : Deed ε} {deeds rest left : List (Deed ε)} {event : ε}
  {o : Outcome} {n : Nat}

/-! ## Depth -/

/-- Wherever one way of publishing gives a result, the other gives the same. -/
def Extends (nested nested' : Bus ε → ε → Option (Bus ε × Nat)) : Prop :=
  ∀ b event r, nested b event = some r → nested' b event = some r

section Nested

variable {nested nested' : Bus ε → ε → Option (Bus ε × Nat)}

theorem perform_cons_iff : perform nested b (deed :: rest) = some (b', o) ↔
    (∃ b₁, carryOut nested b deed = some (b₁, .returned) ∧ perform nested b₁ rest = some (b', o)) ∨
      ∃ m, carryOut nested b deed = some (b', .panicked m) ∧ o = .panicked m := by
  rw [perform]
  rcases carryOut nested b deed with _ | ⟨b₁, _ | m⟩
  · simp
  · simp
  · simp only [Option.some.injEq, Prod.mk.injEq, reduceCtorEq, and_false, false_and, exists_false,
      Outcome.panicked.injEq, false_or]
    constructor
    · rintro ⟨rfl, rfl⟩
      exact ⟨m, ⟨rfl, rfl⟩, rfl⟩
    · rintro ⟨m', ⟨rfl, rfl⟩, rfl⟩
      exact ⟨rfl, rfl⟩

theorem perform_append (b : Bus ε) (deeds rest : List (Deed ε)) :
    perform nested b (deeds ++ rest) =
      match perform nested b deeds with
      | some (b, .returned) => perform nested b rest
      | other => other := by
  induction deeds generalizing b with
  | nil => rw [perform]; rfl
  | cons deed more ih =>
    rw [List.cons_append, perform, perform]
    rcases carryOut nested b deed with _ | ⟨b₁, _ | m⟩
    · rfl
    · exact ih b₁
    · rfl

/-- To look and go on is to go on with what was decided. -/
theorem perform_look (b : Bus ε) (next : Sight → List (Deed ε)) (rest : List (Deed ε)) :
    perform nested b (.look next :: rest) = perform nested b (next b.sight ++ rest) :=
  (perform_append b (next b.sight) rest).symm

mutual

theorem perform_of_extends (h : Extends nested nested') :
    ∀ (deeds : List (Deed ε)) (b : Bus ε) (r : Bus ε × Outcome),
      perform nested b deeds = some r → perform nested' b deeds = some r
  | [], b, r, ends => by rwa [perform] at ends ⊢
  | deed :: rest, b, (b', o), ends => by
    rw [perform_cons_iff] at ends ⊢
    rcases ends with ⟨b₁, first, more⟩ | ⟨m, first, panicked⟩
    · exact .inl ⟨b₁, carryOut_of_extends h deed b _ first, perform_of_extends h rest b₁ _ more⟩
    · exact .inr ⟨m, carryOut_of_extends h deed b _ first, panicked⟩

theorem carryOut_of_extends (h : Extends nested nested') :
    ∀ (deed : Deed ε) (b : Bus ε) (r : Bus ε × Outcome),
      carryOut nested b deed = some r → carryOut nested' b deed = some r
  | .note _, b, r, ends => by rwa [carryOut] at ends ⊢
  | .look next, b, r, ends => by
    rw [carryOut] at ends ⊢
    exact perform_of_extends h (next b.sight) b r ends
  | .dispose _, b, r, ends => by rwa [carryOut] at ends ⊢
  | .register _ _, b, r, ends => by rwa [carryOut] at ends ⊢
  | .publish event report, b, r, ends => by
    rw [carryOut] at ends ⊢
    cases published : nested b event with
    | none => simp [published] at ends
    | some r' => rwa [h b event r' published, ← published]
  | .panic _, b, r, ends => by rwa [carryOut] at ends ⊢
  | .enqueue _ _, b, r, ends => by rwa [carryOut] at ends ⊢

end

theorem deliver_of_extends (h : Extends nested nested') (ls : List (Nat × Listener ε))
    {r : Bus ε × Nat} (ends : deliver nested event b ls n = some r) :
    deliver nested' event b ls n = some r := by
  induction ls generalizing b n with
  | nil => exact ends
  | cons l more ih =>
    rw [deliver] at ends ⊢
    cases performed : perform nested b (l.2 event) with
    | none => simp [performed] at ends
    | some end_ =>
      obtain ⟨b₁, o⟩ := end_
      rw [performed] at ends
      rw [perform_of_extends h _ _ _ performed]
      cases o with
      | returned => exact ih ends
      | panicked m => exact ih ends

end Nested

/-- A publish that ends at some depth ends in the same way wherever more depth is allowed. -/
theorem publish_extends {depth depth' : Nat} (le : depth ≤ depth') :
    Extends (publish (ε := ε) depth) (publish depth') := by
  induction depth generalizing depth' with
  | zero => intro b event r ends; cases ends
  | succ depth ih =>
    intro b event r ends
    obtain _ | deeper := depth'
    · cases le
    · exact deliver_of_extends (ih (Nat.le_of_succ_le_succ le)) b.listeners ends

/-- Publishing an event comes to an end. -/
def Publishes (b : Bus ε) (event : ε) (b' : Bus ε) (n : Nat) : Prop :=
  ∃ depth, publish depth b event = some (b', n)

/-- Carrying out deeds comes to an end. -/
def Performs (b : Bus ε) (deeds : List (Deed ε)) (b' : Bus ε) (o : Outcome) : Prop :=
  ∃ depth, perform (publish depth) b deeds = some (b', o)

/-- There is one end at most. -/
theorem Publishes.unique {b'' : Bus ε} {n' : Nat} (h : b.Publishes event b' n)
    (h' : b.Publishes event b'' n') : b'' = b' ∧ n' = n := by
  obtain ⟨depth, ends⟩ := h
  obtain ⟨depth', ends'⟩ := h'
  have here := publish_extends (Nat.le_max_left depth depth') b event _ ends
  have there := publish_extends (Nat.le_max_right depth depth') b event _ ends'
  simpa [eq_comm] using here.symm.trans there

/-! ## One deed after the other -/

/-- A deed is carried out, and what was to be done after it is left. -/
inductive Goes : Bus ε × List (Deed ε) → Bus ε × List (Deed ε) → Prop where
  | note {b : Bus ε} {rest : List (Deed ε)} (line : String) :
      Goes (b, .note line :: rest) ({ b with trace := b.trace ++ [line] }, rest)
  | look {b : Bus ε} {rest : List (Deed ε)} (next : Sight → List (Deed ε)) :
      Goes (b, .look next :: rest) (b, next b.sight ++ rest)
  | dispose {b : Bus ε} {rest : List (Deed ε)} (slot : String) :
      Goes (b, .dispose slot :: rest) (b.disposeSlot slot, rest)
  | register {b : Bus ε} {rest : List (Deed ε)} (slot : String) (l : Listener ε) :
      Goes (b, .register slot l :: rest) (b.registerAs slot l, rest)
  | publish {b b' : Bus ε} {rest : List (Deed ε)} {event : ε} {n : Nat} (report : Nat → String)
      (ends : b.Publishes event b' n) :
      Goes (b, .publish event report :: rest) ({ b' with trace := b'.trace ++ [report n] }, rest)
  | enqueue {b : Bus ε} {rest : List (Deed ε)} (stream : Nat) (event : ε) :
      Goes (b, .enqueue stream event :: rest) (b.enqueue stream event, rest)

/-- Some deeds are carried out in order. -/
def ComesTo : Bus ε × List (Deed ε) → Bus ε × List (Deed ε) → Prop := Relation.ReflTransGen Goes

/-- What deeds with others behind them leave when they end: the others, or a panic and what was to
be done after it. -/
def Outcome.Leaves (rest : List (Deed ε)) : Outcome → List (Deed ε) → Prop
  | .returned, left => left = rest
  | .panicked m, left =>
    ∃ message more, left = .panic message :: more ∧ m = message.getD "unknown panic"

section ComesTo

variable {depth : Nat}

mutual

theorem comesTo_of_perform : ∀ (deeds : List (Deed ε)) (b b' : Bus ε) (o : Outcome)
    (rest : List (Deed ε)), perform (publish depth) b deeds = some (b', o) →
      ∃ left, ComesTo (b, deeds ++ rest) (b', left) ∧ o.Leaves rest left
  | [], b, b', o, rest, ends => by
    rw [perform] at ends
    cases ends
    exact ⟨rest, .refl, rfl⟩
  | deed :: more, b, b', o, rest, ends => by
    rcases perform_cons_iff.1 ends with ⟨b₁, first, second⟩ | ⟨m, first, rfl⟩
    · obtain ⟨_, here, rfl⟩ := comesTo_of_carryOut deed b b₁ .returned (more ++ rest) first
      obtain ⟨left, there, leaves⟩ := comesTo_of_perform more b₁ b' o rest second
      exact ⟨left, here.trans there, leaves⟩
    · exact comesTo_of_carryOut deed b b' (.panicked m) (more ++ rest) first

theorem comesTo_of_carryOut : ∀ (deed : Deed ε) (b b' : Bus ε) (o : Outcome)
    (rest : List (Deed ε)), carryOut (publish depth) b deed = some (b', o) →
      ∃ left, ComesTo (b, deed :: rest) (b', left) ∧ o.Leaves rest left
  | .note line, b, b', o, rest, ends => by
    rw [carryOut] at ends
    cases ends
    exact ⟨rest, .single (.note line), rfl⟩
  | .look next, b, b', o, rest, ends => by
    rw [carryOut] at ends
    obtain ⟨left, there, leaves⟩ := comesTo_of_perform (next b.sight) b b' o rest ends
    exact ⟨left, .head (.look next) there, leaves⟩
  | .dispose slot, b, b', o, rest, ends => by
    rw [carryOut] at ends
    cases ends
    exact ⟨rest, .single (.dispose slot), rfl⟩
  | .register slot l, b, b', o, rest, ends => by
    rw [carryOut] at ends
    cases ends
    exact ⟨rest, .single (.register slot l), rfl⟩
  | .publish event report, b, b', o, rest, ends => by
    rw [carryOut] at ends
    cases published : publish depth b event with
    | none => simp [published] at ends
    | some r =>
      obtain ⟨b₁, n⟩ := r
      rw [published] at ends
      cases ends
      exact ⟨rest, .single (.publish report ⟨depth, published⟩), rfl⟩
  | .panic message, b, b', o, rest, ends => by
    rw [carryOut] at ends
    cases ends
    exact ⟨.panic message :: rest, .refl, message, rest, rfl, rfl⟩
  | .enqueue stream event, b, b', o, rest, ends => by
    rw [carryOut] at ends
    cases ends
    exact ⟨rest, .single (.enqueue stream event), rfl⟩

end

end ComesTo

theorem performs_nil (b : Bus ε) : b.Performs [] b .returned := ⟨0, by rw [perform]⟩

theorem performs_panic (b : Bus ε) (message : Option String) (rest : List (Deed ε)) :
    b.Performs (.panic message :: rest) b (.panicked (message.getD "unknown panic")) :=
  ⟨0, by rw [perform, carryOut]⟩

theorem Goes.performs (goes : Goes (b, deeds) (b₁, left)) (h : b₁.Performs left b' o) :
    b.Performs deeds b' o := by
  obtain ⟨depth, ends⟩ := h
  cases goes with
  | note line => exact ⟨depth, by rwa [perform, carryOut]⟩
  | look next => exact ⟨depth, by rwa [perform_look]⟩
  | dispose slot => exact ⟨depth, by rwa [perform, carryOut]⟩
  | register slot l => exact ⟨depth, by rwa [perform, carryOut]⟩
  | publish report nested =>
    obtain ⟨depth', published⟩ := nested
    have here := publish_extends (Nat.le_max_left depth' depth) _ _ _ published
    have there := perform_of_extends (publish_extends (Nat.le_max_right depth' depth)) _ _ _ ends
    exact ⟨max depth' depth, by rwa [perform, carryOut, here]⟩
  | enqueue stream event => exact ⟨depth, by rwa [perform, carryOut]⟩

theorem ComesTo.performs {s t : Bus ε × List (Deed ε)} (h : ComesTo s t) (ends : t.1.Performs t.2 b' o) :
    s.1.Performs s.2 b' o := by
  induction h using Relation.ReflTransGen.head_induction_on with
  | refl => exact ends
  | head goes _ ih => exact goes.performs ih

/-- Deeds end where carrying them out one by one leads: with nothing left, or with a panic next. -/
theorem performs_iff : b.Performs deeds b' o ↔
    ∃ left, ComesTo (b, deeds) (b', left) ∧ o.Leaves [] left := by
  constructor
  · rintro ⟨depth, ends⟩
    simpa using comesTo_of_perform deeds b b' o [] ends
  · rintro ⟨left, comes, leaves⟩
    refine comes.performs ?_
    cases o with
    | returned =>
      obtain rfl := leaves
      exact performs_nil b'
    | panicked m =>
      obtain ⟨message, more, rfl, rfl⟩ := leaves
      exact performs_panic b' message more

end CertWatch.Bus
