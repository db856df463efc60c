import CertWatch.Text.Unprintable

/-!
# Quoted text for developers

A text between double quotes, on one line and without characters that cannot be seen: the quote and
the backslash are escaped, and so are control characters, characters without a shape of their own
and marks that join the character before them.
-/

namespace CertWatch.Text
set_option autoImplicit false

/-- The number of a character in hexadecimal. -/
def numberText (c : Char) : List Char := Nat.toDigits 16 c.toNat

/-- A character inside quotes. -/
def quotedChar (c : Char) : List Char :=
  if c = '"' then ['\\', '"']
  else if c = '\\' then ['\\', '\\']
  else if c = '\n' then ['\\', 'n']
  else if c = '\r' then ['\\', 'r']
  else if c = '\t' then ['\\', 't']
  else if c = '\x00' then ['\\', '0']
  else if isUnprintable c then '\\' :: 'u' :: '{' :: numberText c ++ ['}']
  else [c]

/-- The text between quotes. -/
def quoted (s : String) : String := String.ofList ('"' :: s.toList.flatMap quotedChar ++ ['"'])

/-- A value that may be absent, given the text of it. -/
def optional : Option String → String
  | some s => "Some(" ++ s ++ ")"
  | none => "None"

/-- A list of values, given the texts of them. -/
def listed (items : List String) : String := "[" ++ ", ".intercalate items ++ "]"

end CertWatch.Text
