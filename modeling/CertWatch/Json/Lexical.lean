import CertWatch.Json.Number
import CertWatch.Text.Utf8

/-!
# The parts of JSON texts

Blanks, numerals, strings and separated lists at the front of a byte string. Each reader gives what
it read and the bytes that follow. A string can be read or only passed over: passing over accepts
any bytes that are no control characters, and escapes that stand for no character.
-/

namespace CertWatch.Json
set_option autoImplicit false

/-- A reader at the front of a byte string. -/
abbrev Scan (α : Type) := Bytes → Option (α × Bytes)

/-- Blank, tab, line feed and carriage return. -/
def isSpace (b : UInt8) : Bool := b = 0x20 || b = 0x09 || b = 0x0A || b = 0x0D

/-- Drops white space. -/
def skipSpace (bs : Bytes) : Bytes := bs.dropWhile isSpace

/-- A decimal digit. -/
def isDigit (b : UInt8) : Bool := 0x30 ≤ b && b ≤ 0x39

/-- The value of a decimal digit. -/
def digitValue (b : UInt8) : Nat := b.toNat - 0x30

/-- The digits at the front, possibly none. -/
def digits (bs : Bytes) : List Nat × Bytes :=
  ((bs.takeWhile isDigit).map digitValue, bs.dropWhile isDigit)

/-- The whole part of a numeral: a zero alone or digits that do not start with one. -/
def wholePart : Scan (List Nat)
  | 0x30 :: rest => if (digits rest).1 = [] then some ([0], rest) else none
  | bs => if (digits bs).1 = [] then none else some (digits bs)

/-- An optional fraction, which needs a digit. -/
def fractionPart : Scan (Option (List Nat))
  | 0x2E :: rest => if (digits rest).1 = [] then none else some ((digits rest).1, (digits rest).2)
  | bs => some (none, bs)

/-- The sign of an exponent: whether it is negative. -/
def exponentSign : Bytes → Bool × Bytes
  | 0x2B :: rest => (false, rest)
  | 0x2D :: rest => (true, rest)
  | bs => (false, bs)

/-- An optional exponent, which needs a digit. -/
def exponentPart : Scan (Option (Bool × List Nat))
  | b :: rest =>
    if b = 0x65 || b = 0x45 then
      let (negative, rest) := exponentSign rest
      if (digits rest).1 = [] then none
      else some (some (negative, (digits rest).1), (digits rest).2)
    else some (none, b :: rest)
  | [] => some (none, [])

/-- The sign of a numeral: whether it is negative. -/
def sign : Bytes → Bool × Bytes
  | 0x2D :: rest => (true, rest)
  | bs => (false, bs)

/-- A numeral. -/
def numeral : Scan Numeral := fun bs => do
  let (negative, bs) := sign bs
  let (whole, bs) ← wholePart bs
  let (fraction, bs) ← fractionPart bs
  let (exponent, bs) ← exponentPart bs
  return (⟨negative, whole, fraction, exponent⟩, bs)

/-- The value of a hexadecimal digit of either case. -/
def hexValue? (b : UInt8) : Option Nat :=
  if 0x30 ≤ b && b ≤ 0x39 then some (b.toNat - 48)
  else if 0x61 ≤ b && b ≤ 0x66 then some (b.toNat - 87)
  else if 0x41 ≤ b && b ≤ 0x46 then some (b.toNat - 55)
  else none

/-- Four hexadecimal digits. -/
def hexQuad : Scan Nat
  | a :: b :: c :: d :: rest => do
    let a ← hexValue? a
    let b ← hexValue? b
    let c ← hexValue? c
    let d ← hexValue? d
    return (((a * 16 + b) * 16 + c) * 16 + d, rest)
  | _ => none

/-- The character of an escape of one letter. -/
def shortEscape? (b : UInt8) : Option UInt8 :=
  if b = 0x22 then some 0x22
  else if b = 0x5C then some 0x5C
  else if b = 0x2F then some 0x2F
  else if b = 0x62 then some 0x08
  else if b = 0x66 then some 0x0C
  else if b = 0x6E then some 0x0A
  else if b = 0x72 then some 0x0D
  else if b = 0x74 then some 0x09
  else none

/-- The second half of a pair of surrogates. -/
def lowSurrogate : Scan Nat
  | 0x5C :: 0x75 :: rest => do
    let (n, rest) ← hexQuad rest
    if 0xDC00 ≤ n ∧ n ≤ 0xDFFF then return (n - 0xDC00, rest) else none
  | _ => none

/-- The character of a numbered escape, of two escapes if the first is a high surrogate. -/
def numberedEscape : Scan Bytes := fun bs => do
  let (n, bs) ← hexQuad bs
  if 0xDC00 ≤ n ∧ n ≤ 0xDFFF then none
  else if 0xD800 ≤ n ∧ n ≤ 0xDBFF then
    let (low, bs) ← lowSurrogate bs
    return (String.utf8EncodeChar (Char.ofNat (0x10000 + (n - 0xD800) * 1024 + low)), bs)
  else return (String.utf8EncodeChar (Char.ofNat n), bs)

/-- The bytes that an escape stands for, after its backslash. -/
def escape : Scan Bytes
  | 0x75 :: rest => numberedEscape rest
  | b :: rest => (shortEscape? b).map fun c => ([c], rest)
  | [] => none

/-- An escape that is passed over. -/
def escapeExtent : Scan Bytes
  | 0x75 :: rest => (hexQuad rest).map fun (_, rest) => ([], rest)
  | b :: rest => (shortEscape? b).map fun _ => ([], rest)
  | [] => none

/-- The inside of a string up to its closing quote, `esc` reading its escapes. The fuel is spent one
unit a character. -/
def quotedBody (esc : Scan Bytes) : Nat → Bytes → Bytes → Option (Bytes × Bytes)
  | 0, _, _ => none
  | _ + 1, _, [] => none
  | fuel + 1, done, b :: rest =>
    if b = 0x22 then some (done.reverse, rest)
    else if b = 0x5C then
      match esc rest with
      | some (cs, rest) => quotedBody esc fuel (cs.reverse ++ done) rest
      | none => none
    else if b < 0x20 then none
    else quotedBody esc fuel (b :: done) rest

/-- A string with its quotes. -/
def quoted : Scan String
  | 0x22 :: rest => do
    let (bs, rest) ← quotedBody escape (rest.length + 1) [] rest
    let s ← Utf8.decode? bs
    return (s, rest)
  | _ => none

/-- A string that is passed over. -/
def quotedExtent : Scan Unit
  | 0x22 :: rest =>
    (quotedBody escapeExtent (rest.length + 1) [] rest).map fun (_, rest) => ((), rest)
  | _ => none

/-- Given bytes. -/
def literal (word : Bytes) : Scan Unit := fun bs =>
  if word.isPrefixOf bs then some ((), bs.drop word.length) else none

/-- Elements with commas between them up to the byte `close`, at least one. The fuel is spent one
unit an element. -/
def separated {α : Type} (close : UInt8) (element : Scan α) : Nat → List α → Scan (List α)
  | 0, _, _ => none
  | fuel + 1, done, bs => do
    let (a, bs) ← element (skipSpace bs)
    match skipSpace bs with
    | b :: rest =>
      if b = 0x2C then separated close element fuel (a :: done) rest
      else if b = close then some ((a :: done).reverse, rest)
      else none
    | [] => none

/-- The elements that follow an opening bracket, possibly none. -/
def enclosed {α : Type} (close : UInt8) (element : Scan α) : Scan (List α) := fun bs =>
  match skipSpace bs with
  | b :: rest =>
    if b = close then some ([], rest) else separated close element (bs.length + 1) [] bs
  | [] => none

/-- A name, a colon and what follows it. -/
def member {α β : Type} (name : Scan α) (item : Scan β) : Scan (α × β) := fun bs => do
  let (k, bs) ← name bs
  match skipSpace bs with
  | 0x3A :: rest =>
    let (v, rest) ← item (skipSpace rest)
    return ((k, v), rest)
  | _ => none

end CertWatch.Json
