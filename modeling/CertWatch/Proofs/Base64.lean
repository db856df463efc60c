import CertWatch.Base64
import CertWatch.Proofs.Text.Utf8

/-!
# Base64 is read back

A digit stands for the six bits that it was written for, and four digits have as many bits as three
bytes; so a text gives the bytes back that it was written for, with the padding that its last group
needs.
-/

namespace CertWatch.Base64
set_option autoImplicit false

/-- A digit stands for its six bits, and is no padding. -/
theorem value?_digit {n : Nat} (six : n < 64) : value? (digit n) = some n ∧ digit n ≠ '=' := by
  have all : ∀ n < 64, value? (digit n) = some n ∧ digit n ≠ '=' := by decide
  exact all n six

/-- A text of bytes has digits and padding. -/
theorem digit_or_padding (bs : Bytes) : ∀ c ∈ encodeChars bs, (∃ n < 64, c = digit n) ∨ c = '=' := by
  have six : ∀ {n}, n < 64 → (∃ m < 64, digit n = digit m) ∨ digit n = '=' := fun h => .inl ⟨_, h, rfl⟩
  induction bs using encodeChars.induct with
  | case1 => exact nofun
  | case2 a =>
    have bound : a.toNat < 256 := a.toNat_lt
    simp only [encodeChars, List.forall_mem_cons]
    exact ⟨six (by omega), six (by omega), .inr trivial, .inr trivial, nofun⟩
  | case3 a b =>
    have bound : a.toNat < 256 := a.toNat_lt
    have bound' : b.toNat < 256 := b.toNat_lt
    simp only [encodeChars, List.forall_mem_cons]
    exact ⟨six (by omega), six (by omega), six (by omega), .inr trivial, nofun⟩
  | case4 a b c rest ih =>
    have bound : a.toNat < 256 := a.toNat_lt
    have bound' : b.toNat < 256 := b.toNat_lt
    have bound'' : c.toNat < 256 := c.toNat_lt
    simp only [encodeChars, List.forall_mem_cons]
    exact ⟨six (by omega), six (by omega), six (by omega), six (by omega), ih⟩

/-! ## The bytes of a group -/

/-- The first byte, from six bits of the first digit and two of the second. -/
theorem first_byte (a : UInt8) {more : Nat} (four : more < 16) :
    UInt8.ofNat (a.toNat / 4 * 4 + (a.toNat % 4 * 16 + more) / 16) = a := by
  have same : a.toNat / 4 * 4 + (a.toNat % 4 * 16 + more) / 16 = a.toNat := by omega
  rw [same, UInt8.ofNat_toNat]

/-- The second byte, from four bits of the second digit and four of the third. -/
theorem second_byte (before : Nat) (b : UInt8) {more : Nat} (two : more < 4) :
    UInt8.ofNat ((before * 16 + b.toNat / 16) % 16 * 16 + (b.toNat % 16 * 4 + more) / 4) = b := by
  have bound : b.toNat < 256 := b.toNat_lt
  have same : (before * 16 + b.toNat / 16) % 16 * 16 + (b.toNat % 16 * 4 + more) / 4 = b.toNat := by
    omega
  rw [same, UInt8.ofNat_toNat]

/-- The third byte, from two bits of the third digit and six of the fourth. -/
theorem third_byte (before : Nat) (c : UInt8) :
    UInt8.ofNat ((before * 4 + c.toNat / 64) % 4 * 64 + c.toNat % 64) = c := by
  have bound : c.toNat < 256 := c.toNat_lt
  have same : (before * 4 + c.toNat / 64) % 4 * 64 + c.toNat % 64 = c.toNat := by omega
  rw [same, UInt8.ofNat_toNat]

/-- **Bytes are read back from their text.** -/
theorem decodeChars?_encodeChars (bs : Bytes) : decodeChars? (encodeChars bs) = some bs := by
  induction bs using encodeChars.induct with
  | case1 => rfl
  | case2 a =>
    have bound : a.toNat < 256 := a.toNat_lt
    have first := value?_digit (by omega : a.toNat / 4 < 64)
    have second := value?_digit (by omega : a.toNat % 4 * 16 < 64)
    have spare : a.toNat % 4 * 16 % 16 = 0 := by omega
    have byte := first_byte a (by decide : 0 < 16)
    rw [Nat.add_zero] at byte
    simp only [encodeChars, decodeChars?, first, second, spare, byte, Option.bind_eq_bind, Option.bind_some,
      Option.pure_def, and_self, if_true]
  | case3 a b =>
    have bound : a.toNat < 256 := a.toNat_lt
    have bound' : b.toNat < 256 := b.toNat_lt
    have first := value?_digit (by omega : a.toNat / 4 < 64)
    have second := value?_digit (by omega : a.toNat % 4 * 16 + b.toNat / 16 < 64)
    obtain ⟨third, notPadding⟩ := value?_digit (by omega : b.toNat % 16 * 4 < 64)
    have spare : b.toNat % 16 * 4 % 4 = 0 := by omega
    have byte := first_byte a (by omega : b.toNat / 16 < 16)
    have byte' := second_byte (a.toNat % 4) b (by decide : 0 < 4)
    rw [Nat.add_zero] at byte'
    simp only [encodeChars, decodeChars?, first, second, third, notPadding, spare, byte, byte',
      Option.bind_eq_bind, Option.bind_some, Option.pure_def, and_self, if_true, if_false]
  | case4 a b c rest ih =>
    have bound : a.toNat < 256 := a.toNat_lt
    have bound' : b.toNat < 256 := b.toNat_lt
    have bound'' : c.toNat < 256 := c.toNat_lt
    have first := value?_digit (by omega : a.toNat / 4 < 64)
    have second := value?_digit (by omega : a.toNat % 4 * 16 + b.toNat / 16 < 64)
    obtain ⟨third, notPadding⟩ := value?_digit (by omega : b.toNat % 16 * 4 + c.toNat / 64 < 64)
    obtain ⟨fourth, notPadding'⟩ := value?_digit (by omega : c.toNat % 64 < 64)
    have byte := first_byte a (by omega : b.toNat / 16 < 16)
    have byte' := second_byte (a.toNat % 4) b (by omega : c.toNat / 64 < 4)
    have byte'' := third_byte (b.toNat % 16) c
    simp only [encodeChars, decodeChars?, first, second, third, fourth, notPadding, notPadding', byte, byte',
      byte'', ih, Option.bind_eq_bind, Option.bind_some, Option.pure_def, if_false]

theorem decode?_encode (bs : Bytes) : decode? (encode bs) = some bs := by
  rw [decode?, encode, String.toList_ofList, decodeChars?_encodeChars]

/-! ## Which texts are read -/

/-- A character with a value is the digit for it. -/
theorem digit_of_value? {c : Char} {n : Nat} (h : value? c = some n) : n < 64 ∧ digit n = c := by
  have between : ∀ {low high : Char}, low ≤ c ∧ c ≤ high → low.toNat ≤ c.toNat ∧ c.toNat ≤ high.toNat := by
    intro low high within
    simpa [Char.le_def, UInt32.le_iff_toNat_le] using within
  have back : ∀ {m k : Nat}, digit m = Char.ofNat k → k = c.toNat → digit m = c := by
    rintro m k same rfl
    rw [same, Char.ofNat_toNat]
  unfold value? at h
  split at h
  case isTrue upper =>
    obtain ⟨least, most⟩ := between upper
    change 65 ≤ c.toNat at least
    change c.toNat ≤ 90 at most
    cases h
    exact ⟨by omega, back (by rw [digit, if_pos (by omega)]) (by omega)⟩
  case isFalse =>
    split at h
    case isTrue lower =>
      obtain ⟨least, most⟩ := between lower
      change 97 ≤ c.toNat at least
      change c.toNat ≤ 122 at most
      cases h
      exact ⟨by omega, back (by rw [digit, if_neg (by omega), if_pos (by omega)]) (by omega)⟩
    case isFalse =>
      split at h
      case isTrue decimal =>
        obtain ⟨least, most⟩ := between decimal
        change 48 ≤ c.toNat at least
        change c.toNat ≤ 57 at most
        cases h
        exact ⟨by omega,
          back (by rw [digit, if_neg (by omega), if_neg (by omega), if_pos (by omega)]) (by omega)⟩
      case isFalse =>
        split at h
        case isTrue plus =>
          cases h
          exact ⟨by decide, plus ▸ rfl⟩
        case isFalse =>
          split at h
          case isTrue slash =>
            cases h
            exact ⟨by decide, slash ▸ rfl⟩
          case isFalse => cases h

/-- A last byte fills one digit and two bits of the second. -/
theorem encodeChars_one {a b : Nat} (ltA : a < 64) (ltB : b < 64) (spare : b % 16 = 0) :
    encodeChars [UInt8.ofNat (a * 4 + b / 16)] = [digit a, digit b, '=', '='] := by
  have byte : (UInt8.ofNat (a * 4 + b / 16)).toNat = a * 4 + b / 16 := Utf8.toNat_ofNat (by omega)
  have first : (a * 4 + b / 16) / 4 = a := by omega
  have second : (a * 4 + b / 16) % 4 * 16 = b := by omega
  rw [encodeChars, byte, first, second]

/-- Two last bytes fill two digits and four bits of the third. -/
theorem encodeChars_two {a b c : Nat} (ltA : a < 64) (ltB : b < 64) (ltC : c < 64) (spare : c % 4 = 0) :
    encodeChars [UInt8.ofNat (a * 4 + b / 16), UInt8.ofNat (b % 16 * 16 + c / 4)] =
      [digit a, digit b, digit c, '='] := by
  have byte : (UInt8.ofNat (a * 4 + b / 16)).toNat = a * 4 + b / 16 := Utf8.toNat_ofNat (by omega)
  have byte' : (UInt8.ofNat (b % 16 * 16 + c / 4)).toNat = b % 16 * 16 + c / 4 :=
    Utf8.toNat_ofNat (by omega)
  have first : (a * 4 + b / 16) / 4 = a := by omega
  have second : (a * 4 + b / 16) % 4 * 16 + (b % 16 * 16 + c / 4) / 16 = b := by omega
  have third : (b % 16 * 16 + c / 4) % 16 * 4 = c := by omega
  rw [encodeChars, byte, byte', first, second, third]

/-- Three bytes fill four digits. -/
theorem encodeChars_three {a b c d : Nat} (ltA : a < 64) (ltB : b < 64) (ltC : c < 64) (ltD : d < 64)
    (bs : Bytes) :
    encodeChars (UInt8.ofNat (a * 4 + b / 16) :: UInt8.ofNat (b % 16 * 16 + c / 4) ::
        UInt8.ofNat (c % 4 * 64 + d) :: bs) =
      digit a :: digit b :: digit c :: digit d :: encodeChars bs := by
  have byte : (UInt8.ofNat (a * 4 + b / 16)).toNat = a * 4 + b / 16 := Utf8.toNat_ofNat (by omega)
  have byte' : (UInt8.ofNat (b % 16 * 16 + c / 4)).toNat = b % 16 * 16 + c / 4 :=
    Utf8.toNat_ofNat (by omega)
  have byte'' : (UInt8.ofNat (c % 4 * 64 + d)).toNat = c % 4 * 64 + d := Utf8.toNat_ofNat (by omega)
  have first : (a * 4 + b / 16) / 4 = a := by omega
  have second : (a * 4 + b / 16) % 4 * 16 + (b % 16 * 16 + c / 4) / 16 = b := by omega
  have third : (b % 16 * 16 + c / 4) % 16 * 4 + (c % 4 * 64 + d) / 64 = c := by omega
  have fourth : (c % 4 * 64 + d) % 64 = d := by omega
  rw [encodeChars, byte, byte', byte'', first, second, third, fourth]

/-- **A text that is read is the text of its bytes**: its padding and left-over bits are right. -/
theorem encodeChars_of_decodeChars? {cs : List Char} {bs : Bytes} (h : decodeChars? cs = some bs) :
    encodeChars bs = cs := by
  induction cs using decodeChars?.induct generalizing bs with
  | case1 =>
    cases h
    rfl
  | case2 w x y z rest ih =>
    simp only [decodeChars?, Option.bind_eq_bind, Option.bind_eq_some_iff] at h
    obtain ⟨a, first, b, second, h⟩ := h
    obtain ⟨ltA, rfl⟩ := digit_of_value? first
    obtain ⟨ltB, rfl⟩ := digit_of_value? second
    split at h
    case isTrue padded =>
      split at h
      case isTrue last =>
        obtain ⟨rfl, rfl, spare⟩ := last
        cases h
        rw [encodeChars_one ltA ltB spare, padded]
      case isFalse => cases h
    case isFalse =>
      rw [Option.bind_eq_some_iff] at h
      obtain ⟨c, third, h⟩ := h
      obtain ⟨ltC, rfl⟩ := digit_of_value? third
      split at h
      case isTrue padded =>
        split at h
        case isTrue last =>
          obtain ⟨rfl, spare⟩ := last
          cases h
          rw [encodeChars_two ltA ltB ltC spare, padded]
        case isFalse => cases h
      case isFalse =>
        simp only [Option.bind_eq_some_iff] at h
        obtain ⟨d, fourth, tail, more, h⟩ := h
        obtain ⟨ltD, rfl⟩ := digit_of_value? fourth
        cases h
        rw [encodeChars_three ltA ltB ltC ltD, ih more]
  | case3 cs empty short =>
    rw [decodeChars?] at h
    · cases h
    · exact empty
    · exact short

/-- A text is read as bytes exactly if it is their text. -/
theorem decode?_eq_some_iff {s : String} {bs : Bytes} : decode? s = some bs ↔ s = encode bs := by
  constructor
  · intro read
    rw [encode, encodeChars_of_decodeChars? read, String.ofList_toList]
  · rintro rfl
    exact decode?_encode bs

theorem length_encodeChars (bs : Bytes) : (encodeChars bs).length = (bs.length + 2) / 3 * 4 := by
  induction bs using encodeChars.induct with
  | case1 => rfl
  | case2 a => simp [encodeChars]
  | case3 a b => simp [encodeChars]
  | case4 a b c rest ih =>
    simp only [encodeChars, List.length_cons, ih]
    omega

end CertWatch.Base64
