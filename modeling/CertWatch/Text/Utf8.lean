import CertWatch.Bytes

/-!
# UTF-8

The bytes of a text, and two ways back: `decode?` refuses ill-formed bytes, `decodeLossy` puts one
U+FFFD for each maximal ill-formed run, where a run is the longest prefix of an encoded character
that the bytes could still have begun.
-/

namespace CertWatch.Utf8
set_option autoImplicit false

/-- The UTF-8 bytes of a list of characters. -/
def encodeChars (cs : List Char) : Bytes := cs.flatMap String.utf8EncodeChar

/-- The UTF-8 bytes of a text. -/
def encode (s : String) : Bytes := encodeChars s.toList

/-- A byte that continues a character, `10xxxxxx`. -/
def isTail (b : UInt8) : Bool := 0x80 ≤ b && b ≤ 0xBF

/-- Whether `b` may stand second after `lead`: shortest forms only, no surrogates, nothing above
U+10FFFF. -/
def isSecond (lead b : UInt8) : Bool :=
  if lead = 0xE0 then 0xA0 ≤ b && b ≤ 0xBF
  else if lead = 0xED then 0x80 ≤ b && b ≤ 0x9F
  else if lead = 0xF0 then 0x90 ≤ b && b ≤ 0xBF
  else if lead = 0xF4 then 0x80 ≤ b && b ≤ 0x8F
  else isTail b

/-- The six low bits of a continuing byte. -/
def tailBits (b : UInt8) : Nat := b.toNat % 64

/-- Takes one character, or one ill-formed run (`none`), from bytes that start with `lead`. -/
def next (lead : UInt8) (rest : Bytes) : Option Char × Bytes :=
  if lead < 0x80 then (some (Char.ofNat lead.toNat), rest)
  else if 0xC2 ≤ lead && lead ≤ 0xDF then
    match rest with
    | b :: rest' =>
      if isTail b then (some (Char.ofNat (lead.toNat % 32 * 64 + tailBits b)), rest')
      else (none, rest)
    | [] => (none, rest)
  else if 0xE0 ≤ lead && lead ≤ 0xEF then
    match rest with
    | b :: rest₁ =>
      if isSecond lead b then
        match rest₁ with
        | c :: rest₂ =>
          if isTail c then
            (some (Char.ofNat (lead.toNat % 16 * 4096 + tailBits b * 64 + tailBits c)), rest₂)
          else (none, rest₁)
        | [] => (none, rest₁)
      else (none, rest)
    | [] => (none, rest)
  else if 0xF0 ≤ lead && lead ≤ 0xF4 then
    match rest with
    | b :: rest₁ =>
      if isSecond lead b then
        match rest₁ with
        | c :: rest₂ =>
          if isTail c then
            match rest₂ with
            | d :: rest₃ =>
              if isTail d then
                (some (Char.ofNat (lead.toNat % 8 * 262144 + tailBits b * 4096 + tailBits c * 64
                  + tailBits d)), rest₃)
              else (none, rest₂)
            | [] => (none, rest₂)
          else (none, rest₁)
        | [] => (none, rest₁)
      else (none, rest)
    | [] => (none, rest)
  else (none, rest)

theorem length_next_le (lead : UInt8) (rest : Bytes) : (next lead rest).2.length ≤ rest.length := by
  unfold next
  repeat' split
  all_goals simp
  all_goals omega

/-- The characters of a byte string, `none` for each ill-formed run. -/
def pieces (bs : Bytes) : List (Option Char) :=
  match bs with
  | [] => []
  | lead :: rest => (next lead rest).1 :: pieces (next lead rest).2
  termination_by bs.length
  decreasing_by have := length_next_le lead rest; simp only [List.length_cons]; omega

/-- The text of well-formed UTF-8. -/
def decode? (bs : Bytes) : Option String := (pieces bs).mapM id |>.map String.ofList

/-- The text of any bytes, with U+FFFD for each ill-formed run. -/
def decodeLossy (bs : Bytes) : String :=
  String.ofList ((pieces bs).map fun p => p.getD '\uFFFD')

end CertWatch.Utf8
