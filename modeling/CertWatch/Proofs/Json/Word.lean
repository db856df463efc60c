import CertWatch.Proofs.Json.Numeral
import CertWatch.Proofs.Json.Text

/-!
# Words are read back

A number below 2^64 is written in decimal digits and read back as an integer, and a number that is read is below
that bound.
-/

namespace CertWatch.Json
set_option autoImplicit false

/-! ## What is read fits -/

theorem gather_lt {significand : Nat} (small : significand < wordBound) (ds : List Nat) :
    (Numeral.gather significand ds).1 < wordBound := by
  induction ds generalizing significand with
  | nil => exact small
  | cons d ds ih =>
    rw [Numeral.gather]
    split
    case isTrue fits => exact ih fits
    case isFalse => exact small

theorem toDouble_ne_int (negative : Bool) (significand : Nat) (e n : Int) :
    Numeral.toDouble negative significand e ≠ some (.int n) := by
  intro read
  obtain ⟨f, -, read⟩ := Option.bind_eq_some_iff.1 read
  obtain ⟨g, -, read⟩ := Option.bind_eq_some_iff.1 read
  cases read

/-- An integer that a numeral stands for is below 2^64. -/
theorem lt_of_value? {x : Numeral} {n : Int} (read : x.value? = some (.int n)) : n < wordBound := by
  have small := gather_lt (by decide : 0 < wordBound) x.whole
  unfold Numeral.value? at read
  dsimp only at read
  split at read
  · split at read
    · split at read <;> cases read
    · exact absurd read (toDouble_ne_int _ _ _ _)
  · split at read
    · exact absurd read (toDouble_ne_int _ _ _ _)
    · split at read
      · cases read
        omega
      · split at read
        · exact absurd read (toDouble_ne_int _ _ _ _)
        · cases read
          omega

theorem lt_of_readWord {bs : Bytes} {n : Nat} (read : readWord bs = some n) : n < wordBound := by
  obtain ⟨x, -, read⟩ := Option.bind_eq_some_iff.1 read
  obtain ⟨v, value, read⟩ := Option.bind_eq_some_iff.1 read
  cases v with
  | double bits => cases read
  | int m =>
    have bound := lt_of_value? value
    dsimp only at read
    split at read
    · cases read
      omega
    · cases read

/-! ## What is written is read -/

/-- The bytes of decimal digits. -/
theorem encodeChars_of_digits {cs : List Char} (all : ∀ c ∈ cs, c.isDigit = true) :
    Utf8.encodeChars cs = cs.map fun c => UInt8.ofNat c.toNat := by
  have each : ∀ c ∈ cs, String.utf8EncodeChar c = [UInt8.ofNat c.toNat] := by
    intro c among
    obtain ⟨-, most⟩ := Char.isDigit_iff_toNat.1 (all c among)
    have small : c.val.toNat ≤ 0x7f := Nat.le_trans most (by decide)
    rw [String.utf8EncodeChar]
    exact if_pos small
  rw [Utf8.encodeChars, List.flatMap_congr each, List.map_eq_flatMap]

theorem isDigit_ofNat {c : Char} (h : c.isDigit = true) :
    isDigit (UInt8.ofNat c.toNat) = true ∧ digitValue (UInt8.ofNat c.toNat) = c.toNat - '0'.toNat := by
  obtain ⟨least, most⟩ := Char.isDigit_iff_toNat.1 h
  change 48 ≤ c.toNat at least
  change c.toNat ≤ 57 at most
  have same : (UInt8.ofNat c.toNat).toNat = c.toNat := Utf8.toNat_ofNat (by omega)
  refine ⟨?_, by rw [digitValue, same]; rfl⟩
  simp only [isDigit, Bool.and_eq_true, decide_eq_true_eq, UInt8.le_iff_toNat_le, same]
  exact ⟨least, most⟩

/-- No number but zero begins with a zero. -/
theorem head?_toDigits {n : Nat} (positive : 0 < n) : (Nat.toDigits 10 n).head? ≠ some '0' := by
  induction n using Nat.strongRecOn with
  | ind n ih =>
    by_cases small : n < 10
    · rw [Nat.toDigits_of_lt_base small]
      intro same
      have zero := Nat.digitChar_eq_zero.1 (Option.some.inj same)
      omega
    · rw [Nat.toDigits_of_base_le (by decide) (by omega), List.head?_append_of_ne_nil _ Nat.toDigits_ne_nil]
      exact ih (n / 10) (by omega) (by omega)

/-- All digits of a number below 2^64 are gathered. -/
theorem gather_digits {cs : List Char} {significand : Nat} (small : Nat.ofDigitChars 10 cs significand < wordBound) :
    Numeral.gather significand (cs.map fun c => c.toNat - '0'.toNat) = (Nat.ofDigitChars 10 cs significand, []) := by
  induction cs generalizing significand with
  | nil => rfl
  | cons c cs ih =>
    rw [Nat.ofDigitChars_cons] at small ⊢
    have grows := @Nat.ofDigitChars_eq_ofDigitChars_zero cs (10 * significand + (c.toNat - '0'.toNat))
    have unit : 1 ≤ 10 ^ cs.length := Nat.one_le_pow _ _ (by decide)
    have least := Nat.mul_le_mul_right (10 * significand + (c.toNat - '0'.toNat)) unit
    have fits : significand * 10 + (c.toNat - '0'.toNat) < wordBound := by omega
    rw [List.map_cons, Numeral.gather, if_pos fits, Nat.mul_comm significand 10]
    exact ih small

section Writing

variable {n : Nat}

/-- The digits of a number as values. -/
def digitValues (n : Nat) : List Nat := (Nat.toDigits 10 n).map fun c => c.toNat - '0'.toNat

theorem isDigit_of_mem_wordText {c : Char} (among : c ∈ wordText n) : c.isDigit = true :=
  Nat.isDigit_of_mem_toDigits (by decide) (by decide) among

/-- The bytes of a number begin with a digit, which is no zero unless the number is. -/
theorem exists_wordText (n : Nat) :
    ∃ b ds, Utf8.encodeChars (wordText n) = b :: ds ∧ isDigit b = true ∧ (0 < n → b ≠ 0x30) := by
  rw [encodeChars_of_digits fun _ => isDigit_of_mem_wordText]
  cases here : wordText n with
  | nil => exact absurd here Nat.toDigits_ne_nil
  | cons c cs =>
    have digit : c.isDigit = true := isDigit_of_mem_wordText (n := n) (here ▸ List.mem_cons_self)
    obtain ⟨isDigit', value⟩ := isDigit_ofNat digit
    refine ⟨_, _, rfl, isDigit', ?_⟩
    intro positive zero
    change UInt8.ofNat c.toNat = 0x30 at zero
    rw [zero] at value
    have least := (Char.isDigit_iff_toNat.1 digit).1
    have code : c.toNat = '0'.toNat := Nat.le_antisymm (Nat.sub_eq_zero_iff_le.1 value.symm) least
    have first : (wordText n).head? = some '0' := by rw [here, List.head?_cons, Char.toNat_inj.1 code]
    exact head?_toDigits positive first

/-- The digits of a number are the whole part of a numeral. -/
theorem wholePart_wordText (n : Nat) {rest : Bytes} (ends : NoDigit rest) :
    wholePart (Utf8.encodeChars (wordText n) ++ rest) = some (digitValues n, rest) := by
  have bytes := encodeChars_of_digits fun c => isDigit_of_mem_wordText (n := n) (c := c)
  have all : AllDigits (Utf8.encodeChars (wordText n)) := by
    intro b among
    rw [bytes] at among
    obtain ⟨c, hc, rfl⟩ := List.mem_map.1 among
    exact (isDigit_ofNat (isDigit_of_mem_wordText hc)).1
  have values : (Utf8.encodeChars (wordText n)).map digitValue = digitValues n := by
    rw [bytes, List.map_map]
    exact List.map_congr_left fun c hc => (isDigit_ofNat (isDigit_of_mem_wordText (n := n) hc)).2
  have read := digits_append all ends
  rw [values] at read
  cases Nat.eq_zero_or_pos n with
  | inl zero =>
    subst zero
    exact if_pos (congrArg Prod.fst (digits_append (nofun : AllDigits []) ends))
  | inr positive =>
    obtain ⟨b, ds, same, -, notZero⟩ := exists_wordText n
    have notEmpty : digitValues n ≠ [] := by
      rw [← values, same]
      exact List.cons_ne_nil _ _
    rw [same, List.cons_append] at read ⊢
    rw [wholePart, read, if_neg notEmpty]
    exact fun _ zero => notZero positive (List.cons.inj zero).1

theorem numeral_wordText (n : Nat) {rest : Bytes} (ends : EndsNumeral rest) :
    numeral (Utf8.encodeChars (wordText n) ++ rest) = some (⟨false, digitValues n, none, none⟩, rest) := by
  have unsigned : sign (Utf8.encodeChars (wordText n) ++ rest) = (false, Utf8.encodeChars (wordText n) ++ rest) := by
    obtain ⟨b, ds, same, digit, -⟩ := exists_wordText n
    rw [same, List.cons_append, sign]
    rintro _ minus
    cases minus
    cases digit
  have noFraction : fractionPart rest = some (none, rest) := fractionPart_of_noPoint fun b first => (ends b first).2.1
  have noExponent : exponentPart rest = some (none, rest) := exponentPart_of_endsNumeral ends
  rw [numeral, unsigned]
  simp [wholePart_wordText n ends.noDigit, noFraction, noExponent]

/-- **A number below 2^64 is read back.** -/
theorem written_wordText (small : n < wordBound) : Written readWord (wordText n) n := by
  obtain ⟨b, ds, same, digit, -⟩ := exists_wordText n
  have bare : StartsBare (Utf8.encodeChars (wordText n)) := same ▸ startsBare_of_isDigit digit ds
  have read : Reads numeral (Utf8.encodeChars (wordText n)) ⟨false, digitValues n, none, none⟩ :=
    ⟨bare, fun rest ends => numeral_wordText n (endsNumeral_of_delimited ends)⟩
  have gathered : Numeral.gather 0 (digitValues n) = (n, []) := by
    have back : Nat.ofDigitChars 10 (Nat.toDigits 10 n) 0 = n := Nat.ofDigitChars_ten_toDigits
    rw [digitValues, gather_digits (by rwa [back]), back]
  have value : Numeral.value? ⟨false, digitValues n, none, none⟩ = some (.int n) := by
    simp [Numeral.value?, gathered]
  refine ⟨isValueText_of_numeral bare fun _ => numeral_wordText n, ?_, ?_⟩
  · rw [same]
    rintro c first rfl
    cases first
    cases digit
  · rw [readWord, read.whole (spaced_self _)]
    simp [value]

end Writing

end CertWatch.Json
