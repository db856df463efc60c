import CertWatch.Json.Lexical

/-!
# Records in JSON texts

A record has named fields in a fixed order. Its text is an object, in which members with other names
are passed over and no field may occur twice, or an array of the fields in their order, of which the
last ones may be missing. `fields?` finds the text of each field; what a field holds is read from
that text alone.
-/

namespace CertWatch.Json
set_option autoImplicit false

/-- Passes over a value. The fuel bounds how deep arrays and objects lie inside each other. -/
def extent : Nat → Scan Unit
  | 0, _ => none
  | fuel + 1, bs =>
    match bs with
    | 0x5B :: rest => (enclosed 0x5D (extent fuel) rest).map fun (_, r) => ((), r)
    | 0x7B :: rest =>
      (enclosed 0x7D (member quotedExtent (extent fuel)) rest).map fun (_, r) => ((), r)
    | 0x22 :: _ => quotedExtent bs
    | 0x6E :: _ => literal [0x6E, 0x75, 0x6C, 0x6C] bs
    | 0x74 :: _ => literal [0x74, 0x72, 0x75, 0x65] bs
    | 0x66 :: _ => literal [0x66, 0x61, 0x6C, 0x73, 0x65] bs
    | _ => (numeral bs).map fun (_, r) => ((), r)

/-- The text of the value at the front. -/
def valueText : Scan Bytes := fun bs =>
  (extent (bs.length + 1) bs).map fun (_, rest) => (bs.take (bs.length - rest.length), rest)

/-- Reads a whole text, with white space around it. -/
def whole {α : Type} (scan : Scan α) (bs : Bytes) : Option α :=
  match scan (skipSpace bs) with
  | some (a, rest) => if skipSpace rest = [] then some a else none
  | none => none

/-- The elements of an array, as texts. -/
def elementTexts : Scan (List Bytes)
  | 0x5B :: rest => enclosed 0x5D valueText rest
  | _ => none

/-- The members of an object, as texts. -/
def memberTexts : Scan (List (String × Bytes))
  | 0x7B :: rest => enclosed 0x7D (member quoted valueText) rest
  | _ => none

/-- The text of a field, if it has one: the record's fields by name. -/
abbrev FieldTexts := String → Option Bytes

/-- Whether no field occurs twice among the members. -/
def fieldsOnce (names : List String) (members : List (String × Bytes)) : Bool :=
  names.all fun n => (members.filter fun m => m.1 = n).length ≤ 1

/-- The field texts of a record's text, by the names of its fields in order. -/
def fields? (names : List String) (bs : Bytes) : Option FieldTexts :=
  match whole memberTexts bs with
  | some members =>
    if fieldsOnce names members then
      some fun n => (members.find? fun m => m.1 = n).map Prod.snd
    else none
  | none =>
    match whole elementTexts bs with
    | some items =>
      if items.length ≤ names.length then
        some fun n => ((names.zip items).find? fun m => m.1 = n).map Prod.snd
      else none
    | none => none

/-- Reads a field from its text, or takes the default if it has none. -/
def fieldOr {α : Type} (fallback : α) (read : Bytes → Option α) : Option Bytes → Option α
  | none => some fallback
  | some bs => read bs

/-- The text of a string. -/
def readString (bs : Bytes) : Option String := whole quoted bs

/-- A natural number below 2^64, written as a plain integer. -/
def readWord (bs : Bytes) : Option Nat := do
  let x ← whole numeral bs
  match ← x.value? with
  | .int n => if 0 ≤ n then some n.toNat else none
  | .double _ => none

/-- A value that may be `null`. -/
def readOption {α : Type} (read : Bytes → Option α) (bs : Bytes) : Option (Option α) :=
  if whole (literal [0x6E, 0x75, 0x6C, 0x6C]) bs = some () then some none else (read bs).map some

/-- A list of strings. -/
def readStrings (bs : Bytes) : Option (List String) := do (← whole elementTexts bs).mapM readString

/-- A character inside a quoted string. -/
def escapeChar (c : Char) : List Char :=
  if c = '"' then ['\\', '"']
  else if c = '\\' then ['\\', '\\']
  else if c = '\x08' then ['\\', 'b']
  else if c = '\x0c' then ['\\', 'f']
  else if c = '\n' then ['\\', 'n']
  else if c = '\r' then ['\\', 'r']
  else if c = '\t' then ['\\', 't']
  else if c.toNat < 0x20 then
    '\\' :: 'u' :: '0' :: '0' :: Bytes.hexPair (UInt8.ofNat c.toNat)
  else [c]

/-- The quoted text of a string. -/
def quote (s : String) : List Char := '"' :: s.toList.flatMap escapeChar ++ ['"']

/-- The text of a list with given item texts. -/
def listText (items : List (List Char)) : List Char := '[' :: [','].intercalate items ++ [']']

/-- The text of a record with given field texts. -/
def recordText (fields : List (String × List Char)) : List Char :=
  '{' :: [','].intercalate (fields.map fun f => quote f.1 ++ ':' :: f.2) ++ ['}']

/-- The text of an optional value. -/
def optionText {α : Type} (text : α → List Char) : Option α → List Char
  | none => "null".toList
  | some a => text a

/-- The text of a natural number. -/
def wordText (n : Nat) : List Char := Nat.toDigits 10 n

end CertWatch.Json
