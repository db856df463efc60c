import CertWatch.Text.Utf8

/-!
# UTF-8 is read back as it was written

The encoding of a character is taken as one piece, whatever follows it, so the pieces of an encoded
text are its characters.
-/

namespace CertWatch.Utf8
set_option autoImplicit false

section Bytes

theorem isTail_iff {b : UInt8} : isTail b = true ↔ 0x80 ≤ b.toNat ∧ b.toNat ≤ 0xBF := by
  simp [isTail, UInt8.le_iff_toNat_le]

theorem toNat_ofNat {n : Nat} (h : n < 256) : (UInt8.ofNat n).toNat = n := by
  simp [Nat.mod_eq_of_lt h]

/-- Six bits as a continuing byte. -/
theorem isTail_bits (n : Nat) : isTail (UInt8.ofNat (n % 64 + 128)) = true := by
  rw [isTail_iff, toNat_ofNat (by omega)]
  omega

theorem tailBits_bits (n : Nat) : tailBits (UInt8.ofNat (n % 64 + 128)) = n % 64 := by
  rw [tailBits, toNat_ofNat (by omega)]
  omega

theorem eq_literal_iff {b : UInt8} {n : Nat} (h : n < 256) : b = UInt8.ofNat n ↔ b.toNat = n := by
  rw [← UInt8.toNat_inj, toNat_ofNat h]

/-- What `isSecond` asks of the second byte, by the number of the first. -/
theorem isSecond_iff {lead b : UInt8} : isSecond lead b = true ↔
    0x80 ≤ b.toNat ∧ b.toNat ≤ 0xBF ∧ (lead.toNat = 0xE0 → 0xA0 ≤ b.toNat) ∧
      (lead.toNat = 0xED → b.toNat ≤ 0x9F) ∧ (lead.toNat = 0xF0 → 0x90 ≤ b.toNat) ∧
      (lead.toNat = 0xF4 → b.toNat ≤ 0x8F) := by
  have e0 : lead = 0xE0 ↔ lead.toNat = 0xE0 := eq_literal_iff (by decide)
  have ed : lead = 0xED ↔ lead.toNat = 0xED := eq_literal_iff (by decide)
  have f0 : lead = 0xF0 ↔ lead.toNat = 0xF0 := eq_literal_iff (by decide)
  have f4 : lead = 0xF4 ↔ lead.toNat = 0xF4 := eq_literal_iff (by decide)
  unfold isSecond
  simp only [e0, ed, f0, f4]
  repeat' split
  all_goals
    simp only [isTail_iff, Bool.and_eq_true, decide_eq_true_eq, UInt8.le_iff_toNat_le,
      UInt8.reduceToNat]
    omega

end Bytes

section Next

variable {lead b c d : UInt8} (rest : Bytes)

theorem next_one (h : lead.toNat < 0x80) : next lead rest = (some (Char.ofNat lead.toNat), rest) := by
  have first : lead < 0x80 := UInt8.lt_iff_toNat_lt.2 h
  simp [next, first]

theorem next_two (least : 0xC2 ≤ lead.toNat) (most : lead.toNat ≤ 0xDF) (tail : isTail b = true) :
    next lead (b :: rest) = (some (Char.ofNat (lead.toNat % 32 * 64 + tailBits b)), rest) := by
  have first : ¬ lead < 0x80 := by rw [UInt8.lt_iff_toNat_lt]; simp; omega
  have range : (0xC2 ≤ lead && lead ≤ 0xDF) = true := by
    simp [UInt8.le_iff_toNat_le]; omega
  simp [next, first, range, tail]

theorem next_three (least : 0xE0 ≤ lead.toNat) (most : lead.toNat ≤ 0xEF)
    (second : isSecond lead b = true) (tail : isTail c = true) :
    next lead (b :: c :: rest) =
      (some (Char.ofNat (lead.toNat % 16 * 4096 + tailBits b * 64 + tailBits c)), rest) := by
  have first : ¬ lead < 0x80 := by rw [UInt8.lt_iff_toNat_lt]; simp; omega
  have two : (0xC2 ≤ lead && lead ≤ 0xDF) = false := by
    simp [UInt8.le_iff_toNat_le]; omega
  have range : (0xE0 ≤ lead && lead ≤ 0xEF) = true := by
    simp [UInt8.le_iff_toNat_le]; omega
  simp [next, first, two, range, second, tail]

theorem next_four (least : 0xF0 ≤ lead.toNat) (most : lead.toNat ≤ 0xF4)
    (second : isSecond lead b = true) (third : isTail c = true) (tail : isTail d = true) :
    next lead (b :: c :: d :: rest) =
      (some (Char.ofNat (lead.toNat % 8 * 262144 + tailBits b * 4096 + tailBits c * 64 + tailBits d)),
        rest) := by
  have first : ¬ lead < 0x80 := by rw [UInt8.lt_iff_toNat_lt]; simp; omega
  have two : (0xC2 ≤ lead && lead ≤ 0xDF) = false := by
    simp [UInt8.le_iff_toNat_le]; omega
  have three : (0xE0 ≤ lead && lead ≤ 0xEF) = false := by
    simp [UInt8.le_iff_toNat_le]; omega
  have range : (0xF0 ≤ lead && lead ≤ 0xF4) = true := by
    simp [UInt8.le_iff_toNat_le]; omega
  simp [next, first, two, three, range, second, third, tail]

end Next

/-- The number of a character is no surrogate and not above U+10FFFF. -/
theorem valid_toNat (ch : Char) :
    ch.val.toNat < 0xD800 ∨ 0xDFFF < ch.val.toNat ∧ ch.val.toNat < 0x110000 := ch.valid

/-- An encoded character is taken as one piece, whatever follows it. -/
theorem pieces_utf8EncodeChar (ch : Char) (rest : Bytes) :
    pieces (String.utf8EncodeChar ch ++ rest) = some ch :: pieces rest := by
  have valid := valid_toNat ch
  have back : ∀ n, n = ch.val.toNat → Char.ofNat n = ch := fun n same => same ▸ ch.ofNat_toNat
  unfold String.utf8EncodeChar
  generalize ch.val.toNat = v at valid back ⊢
  dsimp only
  split
  case isTrue one =>
    rw [List.singleton_append, pieces, next_one rest (by rw [toNat_ofNat (by omega)]; omega),
      toNat_ofNat (by omega), back v rfl]
  case isFalse more =>
    split
    case isTrue two =>
      have lead : (UInt8.ofNat (v / 64 % 0x20 + 0xc0)).toNat = v / 64 % 0x20 + 0xc0 :=
        toNat_ofNat (by omega)
      rw [List.cons_append, List.singleton_append, pieces,
        next_two rest (by omega) (by omega) (isTail_bits v), tailBits_bits, lead, back _ (by omega)]
    case isFalse more =>
      split
      case isTrue three =>
        have lead : (UInt8.ofNat (v / 4096 % 0x10 + 0xe0)).toNat = v / 4096 % 0x10 + 0xe0 :=
          toNat_ofNat (by omega)
        have second : isSecond (UInt8.ofNat (v / 4096 % 0x10 + 0xe0))
            (UInt8.ofNat (v / 64 % 0x40 + 0x80)) = true := by
          rw [isSecond_iff, lead, toNat_ofNat (by omega)]
          omega
        rw [List.cons_append, List.cons_append, List.singleton_append, pieces,
          next_three rest (by omega) (by omega) second (isTail_bits v), tailBits_bits, tailBits_bits,
          lead, back _ (by omega)]
      case isFalse =>
        have lead : (UInt8.ofNat (v / 262144 % 0x08 + 0xf0)).toNat = v / 262144 % 0x08 + 0xf0 :=
          toNat_ofNat (by omega)
        have second : isSecond (UInt8.ofNat (v / 262144 % 0x08 + 0xf0))
            (UInt8.ofNat (v / 4096 % 0x40 + 0x80)) = true := by
          rw [isSecond_iff, lead, toNat_ofNat (by omega)]
          omega
        rw [List.cons_append, List.cons_append, List.cons_append, List.singleton_append, pieces,
          next_four rest (by omega) (by omega) second (isTail_bits _) (isTail_bits v), tailBits_bits,
          tailBits_bits, tailBits_bits, lead, back _ (by omega)]

@[simp] theorem encodeChars_append (cs ds : List Char) :
    encodeChars (cs ++ ds) = encodeChars cs ++ encodeChars ds := List.flatMap_append

@[simp] theorem encodeChars_cons (c : Char) (cs : List Char) :
    encodeChars (c :: cs) = String.utf8EncodeChar c ++ encodeChars cs := List.flatMap_cons

theorem pieces_encodeChars (cs : List Char) : pieces (encodeChars cs) = cs.map some := by
  induction cs with
  | nil => rw [encodeChars, List.flatMap_nil, pieces]; rfl
  | cons c rest ih => rw [encodeChars_cons, pieces_utf8EncodeChar, ih, List.map_cons]

theorem decode?_encodeChars (cs : List Char) : decode? (encodeChars cs) = some (String.ofList cs) := by
  have all : ∀ cs : List Char, (cs.map some).mapM id = some cs := by
    intro cs
    induction cs with
    | nil => rfl
    | cons c rest ih => simp [ih]
  rw [decode?, pieces_encodeChars, all]
  rfl

/-- **A text is read back from its bytes.** -/
theorem decode?_encode (s : String) : decode? (encode s) = some s := by
  rw [encode, decode?_encodeChars, String.ofList_toList]

/-- Nothing is lost of a text that is read without refusing anything. -/
theorem toList_decodeLossy_encodeChars (cs : List Char) : (decodeLossy (encodeChars cs)).toList = cs := by
  simp [decodeLossy, pieces_encodeChars, Function.comp_def]

/-- Texts are told apart by their bytes. -/
theorem encode_inj {s t : String} (same : encode s = encode t) : s = t := by
  have decoded := congrArg decode? same
  rw [decode?_encode, decode?_encode] at decoded
  exact Option.some.inj decoded

end CertWatch.Utf8
