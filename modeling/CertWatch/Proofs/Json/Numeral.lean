import CertWatch.Proofs.Json.Layout

/-!
# Numerals

A numeral ends where nothing follows that could be part of it, so it is cut off at the same place before white
space, a comma or a closing bracket. The digits of a number below 2^64 are read as this number.
-/

namespace CertWatch.Json
set_option autoImplicit false

/-! ## Digits -/

/-- Nothing but digits. -/
def AllDigits (bs : Bytes) : Prop := ∀ b ∈ bs, isDigit b = true

/-- What is not continued by digits. -/
def NoDigit (bs : Bytes) : Prop := ∀ b ∈ bs.head?, isDigit b = false

/-- Bytes after which a numeral cannot go on, whatever part of it has been read. -/
def EndsNumeral (bs : Bytes) : Prop := ∀ b ∈ bs.head?, isDigit b = false ∧ b ≠ 0x2E ∧ b ≠ 0x65 ∧ b ≠ 0x45

theorem EndsNumeral.noDigit {bs : Bytes} (h : EndsNumeral bs) : NoDigit bs := fun b first => (h b first).1

theorem endsNumeral_of_delimited {bs : Bytes} (h : Delimited bs) : EndsNumeral bs := by
  rcases h with rfl | ⟨b, more, rfl, end'⟩
  · exact nofun
  · intro c first
    cases first
    rcases end' with rfl | rfl | rfl | space
    · decide
    · decide
    · decide
    · simp only [isSpace, Bool.or_eq_true, decide_eq_true_eq] at space
      rcases space with ((rfl | rfl) | rfl) | rfl <;> decide

theorem digits_append {ds bs : Bytes} (all : AllDigits ds) (ends : NoDigit bs) :
    digits (ds ++ bs) = (ds.map digitValue, bs) := by
  have taken : bs.takeWhile isDigit = [] ∧ bs.dropWhile isDigit = bs := by
    cases bs with
    | nil => exact ⟨rfl, rfl⟩
    | cons b bs => simp [ends b rfl]
  rw [digits, List.takeWhile_append_of_pos all, List.dropWhile_append_of_pos all, taken.1, taken.2, List.append_nil]

theorem exists_digits (bs : Bytes) :
    ∃ ds, AllDigits ds ∧ bs = ds ++ (digits bs).2 ∧ (digits bs).1 = ds.map digitValue :=
  ⟨bs.takeWhile isDigit, List.all_eq_true.1 List.all_takeWhile, List.takeWhile_append_dropWhile.symm, rfl⟩

/-! ## The parts of a numeral -/

theorem startsBare_of_isDigit {b : UInt8} (h : isDigit b = true) (bs : Bytes) : StartsBare (b :: bs) := by
  refine ⟨b, bs, rfl, ?_⟩
  simp only [isDigit, Bool.and_eq_true, decide_eq_true_eq, UInt8.le_iff_toNat_le] at h
  obtain ⟨least, most⟩ := h
  have other {c : UInt8} (low : c.toNat < 48) : ¬ b = c := by
    rintro rfl
    exact absurd least (by simpa using low)
  simp [isSpace, other]

/-- The digits of a whole part are there again in front of what is no digit. -/
theorem exists_of_wholePart {bs rest : Bytes} {ns : List Nat} (read : wholePart bs = some (ns, rest)) :
    ∃ d ds, bs = d :: ds ++ rest ∧ isDigit d = true ∧
      ∀ more, NoDigit more → wholePart (d :: ds ++ more) = some (ns, more) := by
  unfold wholePart at read
  split at read
  case h_1 tail =>
    split at read
    case isFalse => cases read
    case isTrue =>
      cases read
      refine ⟨0x30, [], rfl, rfl, ?_⟩
      intro more ends
      have none : (digits more).1 = [] := congrArg Prod.fst (digits_append (nofun : AllDigits []) ends)
      simp [wholePart, none]
  case h_2 notZero =>
    split at read
    case isTrue => cases read
    case isFalse some =>
      obtain ⟨ds, all, same, values⟩ := exists_digits bs
      rw [Option.some.inj read] at same values some
      subst same values
      cases ds with
      | nil => exact absurd rfl some
      | cons d ds =>
        refine ⟨d, ds, rfl, all d List.mem_cons_self, ?_⟩
        intro more ends
        have again := digits_append all ends
        rw [List.cons_append] at again ⊢
        rw [wholePart, again]
        · simp
        · exact fun more same => notZero _ (congrArg (· :: (ds ++ rest)) (List.cons.inj same).1)

theorem fractionPart_of_noPoint {bs : Bytes} (noPoint : ∀ b ∈ bs.head?, b ≠ 0x2E) :
    fractionPart bs = some (none, bs) := by
  rw [fractionPart]
  rintro tail rfl
  exact noPoint 0x2E rfl rfl

/-- A fraction begins with a point, and is cut off where no digit follows. -/
theorem exists_of_fractionPart {bs rest : Bytes} {fraction : Option (List Nat)}
    (read : fractionPart bs = some (fraction, rest)) :
    ∃ text, bs = text ++ rest ∧ (text = [] ∨ ∃ inner, text = 0x2E :: inner) ∧
      ∀ more, NoDigit more → (∀ b ∈ more.head?, b ≠ 0x2E) → fractionPart (text ++ more) = some (fraction, more) := by
  unfold fractionPart at read
  split at read
  case h_1 tail =>
    split at read
    case isTrue => cases read
    case isFalse some =>
      obtain ⟨ds, all, same, values⟩ := exists_digits tail
      cases read
      refine ⟨0x2E :: ds, congrArg (0x2E :: ·) same, .inr ⟨ds, rfl⟩, ?_⟩
      intro more ends _
      have again := digits_append all ends
      rw [values] at some ⊢
      rw [List.cons_append, fractionPart, again, if_neg some]
  case h_2 noPoint =>
    cases read
    exact ⟨[], rfl, .inl rfl, fun _ _ other => fractionPart_of_noPoint other⟩

/-- A sign is there again in front of a digit. -/
theorem exists_of_exponentSign (bs : Bytes) :
    ∃ mark, bs = mark ++ (exponentSign bs).2 ∧
      ∀ d more, isDigit d = true → exponentSign (mark ++ d :: more) = ((exponentSign bs).1, d :: more) := by
  unfold exponentSign
  split
  case h_1 tail => exact ⟨[0x2B], rfl, fun _ _ _ => rfl⟩
  case h_2 tail => exact ⟨[0x2D], rfl, fun _ _ _ => rfl⟩
  case h_3 =>
    refine ⟨[], rfl, ?_⟩
    intro d more digit
    rw [List.nil_append]
    split
    case h_1 same => cases same; cases digit
    case h_2 same => cases same; cases digit
    case h_3 => rfl

theorem exponentPart_of_endsNumeral {bs : Bytes} (ends : EndsNumeral bs) : exponentPart bs = some (none, bs) := by
  cases bs with
  | nil => rfl
  | cons b bs =>
    obtain ⟨-, -, small, capital⟩ := ends b rfl
    simp [exponentPart, small, capital]

/-- An exponent begins with its letter, and is cut off where no digit follows. -/
theorem exists_of_exponentPart {bs rest : Bytes} {exponent : Option (Bool × List Nat)}
    (read : exponentPart bs = some (exponent, rest)) :
    ∃ text, bs = text ++ rest ∧ (text = [] ∨ ∃ b inner, text = b :: inner ∧ (b = 0x65 ∨ b = 0x45)) ∧
      ∀ more, EndsNumeral more → exponentPart (text ++ more) = some (exponent, more) := by
  cases bs with
  | nil =>
    cases read
    exact ⟨[], rfl, .inl rfl, fun _ => exponentPart_of_endsNumeral⟩
  | cons b tail =>
    rw [exponentPart] at read
    split at read
    case isFalse noLetter =>
      cases read
      exact ⟨[], rfl, .inl rfl, fun _ => exponentPart_of_endsNumeral⟩
    case isTrue letter =>
      dsimp only at read
      split at read
      case isTrue => cases read
      case isFalse some =>
        obtain ⟨mark, front, again⟩ := exists_of_exponentSign tail
        obtain ⟨ds, all, same, values⟩ := exists_digits (exponentSign tail).2
        cases read
        cases ds with
        | nil => exact absurd values some
        | cons d ds =>
          refine ⟨b :: (mark ++ d :: ds), ?_, .inr ⟨b, _, rfl, by simpa using letter⟩, ?_⟩
          · rw [List.cons_append, List.append_assoc, ← same, ← front]
          · intro more ends
            have digits' := digits_append all ends.noDigit
            rw [List.cons_append] at digits'
            rw [List.cons_append, List.append_assoc, List.cons_append, exponentPart, if_pos letter,
              again d (ds ++ more) (all d List.mem_cons_self)]
            simp [digits', values]

/-- A sign is there again in front of a digit. -/
theorem exists_of_sign (bs : Bytes) :
    ∃ mark, bs = mark ++ (sign bs).2 ∧ (mark = [] ∨ mark = [0x2D]) ∧
      ∀ d more, isDigit d = true → sign (mark ++ d :: more) = ((sign bs).1, d :: more) := by
  unfold sign
  split
  case h_1 tail => exact ⟨[0x2D], rfl, .inr rfl, fun _ _ _ => rfl⟩
  case h_2 =>
    refine ⟨[], rfl, .inl rfl, ?_⟩
    intro d more digit
    rw [List.nil_append]
    split
    case h_1 same => cases same; cases digit
    case h_2 => rfl

/-- **A numeral is cut off where nothing follows that could be part of it.** -/
theorem cuts_numeral : Cuts numeral fun text x =>
    StartsBare text ∧ ∀ more, EndsNumeral more → numeral (text ++ more) = some (x, more) := by
  intro bs x rest read
  obtain ⟨⟨whole, bs₁⟩, wholes, read⟩ := Option.bind_eq_some_iff.1 read
  obtain ⟨⟨fraction, bs₂⟩, fractions, read⟩ := Option.bind_eq_some_iff.1 read
  obtain ⟨⟨exponent, bs₃⟩, exponents, read⟩ := Option.bind_eq_some_iff.1 read
  cases read
  change wholePart (sign bs).2 = some (whole, bs₁) at wholes
  obtain ⟨mark, front, minus, signed⟩ := exists_of_sign bs
  obtain ⟨d, ds, same, digit, again⟩ := exists_of_wholePart wholes
  obtain ⟨text, same', point, again'⟩ := exists_of_fractionPart fractions
  obtain ⟨text', same'', letter, again''⟩ := exists_of_exponentPart exponents
  refine ⟨mark ++ (d :: ds ++ (text ++ text')), ?_, ?_, ?_⟩
  · calc bs = mark ++ (sign bs).2 := front
      _ = mark ++ (d :: ds ++ (text ++ (text' ++ rest))) := by rw [same, same', same'']
      _ = mark ++ (d :: ds ++ (text ++ text')) ++ rest := by simp
  · rcases minus with rfl | rfl
    · exact startsBare_of_isDigit digit _
    · exact ⟨0x2D, _, rfl, rfl⟩
  · intro more ends
    have behind : NoDigit (text' ++ more) ∧ ∀ b ∈ (text' ++ more).head?, b ≠ 0x2E := by
      rcases letter with rfl | ⟨b, inner, rfl, rfl | rfl⟩
      · exact ⟨ends.noDigit, fun b first => (ends b first).2.1⟩
      · exact ⟨fun c first => by cases first; rfl, fun c first => by cases first; decide⟩
      · exact ⟨fun c first => by cases first; rfl, fun c first => by cases first; decide⟩
    have noDigit : NoDigit (text ++ (text' ++ more)) := by
      rcases point with rfl | ⟨inner, rfl⟩
      · exact behind.1
      · exact fun c first => by cases first; rfl
    have start := signed d (ds ++ (text ++ (text' ++ more))) digit
    have shape : mark ++ (d :: ds ++ (text ++ text')) ++ more = mark ++ d :: (ds ++ (text ++ (text' ++ more))) := by
      simp
    have wholes' := again _ noDigit
    rw [List.cons_append] at wholes'
    show numeral (mark ++ (d :: ds ++ (text ++ text')) ++ more) = some (⟨(sign bs).1, whole, fraction, exponent⟩, more)
    rw [shape, numeral, start]
    simp [wholes', again' _ behind.1 behind.2, again'' more ends]

/-- No numeral begins with a byte that is neither a digit nor a minus. -/
theorem numeral_of_first {b : UInt8} (notDigit : isDigit b = false) (notMinus : b ≠ 0x2D) (rest : Bytes) :
    numeral (b :: rest) = none := by
  have unsigned : sign (b :: rest) = (false, b :: rest) := by
    rw [sign]
    exact fun _ same => notMinus (List.cons.inj same).1
  have none : wholePart (b :: rest) = none := by
    unfold wholePart
    split
    case h_1 same => cases same; cases notDigit
    case h_2 => simp [digits, notDigit]
  rw [numeral, unsigned]
  simp [none]

end CertWatch.Json
