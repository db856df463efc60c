import CertWatch.Text.Blank
import CertWatch.Time.Timestamp

/-!
# Reading timestamps

Three spellings are read. `ofRfc3339` takes RFC 3339 with a blank allowed in place of the `T`.
`ofRelaxed` also allows blanks between the parts, signed years of any length, `UTC` for the zone and
offsets without a colon. `ofZoneless` takes a date and time without a zone, as UTC. A reader goes
from left to right and the first fault ends it. Whether the parts make a date or a time of day is
asked as soon as they have been read in RFC 3339, and at the end in the other two.
-/

namespace CertWatch.Timestamp
set_option autoImplicit false

/-- Why a text is no timestamp. -/
inductive Fault where
  | invalid
  | tooShort
  | tooLong
  | outOfRange
  | impossible
  deriving DecidableEq, Repr

/-- The fault in words. -/
def Fault.message : Fault → String
  | invalid => "input contains invalid characters"
  | tooShort => "premature end of input"
  | tooLong => "trailing input"
  | outOfRange => "input is out of range"
  | impossible => "no possible date and time matching input"

/-- A reader of a part at the front of a text: the part and what follows it. -/
abbrev Reader (α : Type) := List Char → Except Fault (α × List Char)

/-- The length of a text in UTF-8 bytes. -/
def byteLength (cs : List Char) : Nat := cs.foldl (fun n c => n + c.utf8Size) 0

/-- The value of a list of decimal digits. -/
def digitsValue (cs : List Char) : Nat := cs.foldl (fun n c => 10 * n + (c.toNat - 48)) 0

/-- A number of at least `least` digits, of which at most `most` are taken (all if `none`). -/
def number (least : Nat) (most : Option Nat) : Reader Nat := fun cs =>
  if byteLength cs < least then .error .tooShort
  else
    let digits := (match most with | some m => cs.take m | none => cs).takeWhile Char.isDigit
    if digits.length < least then .error .invalid
    else .ok (digitsValue digits, cs.drop digits.length)

/-- One given character. -/
def char (c : Char) : Reader Unit
  | [] => .error .tooShort
  | d :: rest => if d = c then .ok ((), rest) else .error .invalid

/-- A number that has to lie within bounds. -/
def bounded (low high : Nat) (reader : Reader Nat) : Reader Nat := fun cs => do
  let (n, rest) ← reader cs
  if low ≤ n ∧ n ≤ high then .ok (n, rest) else .error .outOfRange

/-- The digits of a fraction of a second as nanoseconds; digits after the ninth are skipped. -/
def nanoseconds : Reader Nat := fun cs => do
  let (n, rest) ← number 1 (some 9) cs
  let taken := cs.length - rest.length
  .ok (n * Nat.pow 10 (9 - taken), rest.dropWhile Char.isDigit)

/-- An optional fraction of a second. -/
def fraction : Reader Nat
  | '.' :: rest => nanoseconds rest
  | cs => .ok (0, cs)

/-- The sign of an offset; U+2212 is a minus sign too. -/
def offsetSign : Reader Int
  | '+' :: rest => .ok (1, rest)
  | '-' :: rest => .ok (-1, rest)
  | '\u2212' :: rest => .ok (-1, rest)
  | _ :: _ => .error .invalid
  | [] => .error .tooShort

/-- Two digits, the first of which may be restricted. -/
def digitPair (highest : Char) : Reader Nat := fun cs =>
  if byteLength cs < 2 then .error .tooShort
  else match cs with
    | a :: b :: rest =>
      if a.isDigit && b.isDigit then
        if a ≤ highest then .ok (digitsValue [a, b], rest) else .error .outOfRange
      else .error .invalid
    | _ => .error .invalid

/-- An offset from UTC in seconds; `between` reads what stands between hours and minutes. -/
def offset (between : Reader Unit) : Reader Int := fun cs =>
  match cs with
  | 'Z' :: rest => .ok (0, rest)
  | 'z' :: rest => .ok (0, rest)
  | _ => do
    let (sign, cs) ← offsetSign cs
    let (hours, cs) ← digitPair '9' cs
    let ((), cs) ← between cs
    let (minutes, cs) ← digitPair '5' cs
    .ok (sign * (hours * 3600 + minutes * 60), cs)

/-- The parts of a local time. -/
structure Parts where
  year : Int
  month : Nat
  day : Nat
  hour : Nat
  minute : Nat
  second : Nat
  nanos : Nat
  deriving DecidableEq, Repr

/-- The years that a date may fall in. -/
def yearInRange (year : Int) : Bool := -262143 ≤ year && year ≤ 262142

/-- The instant of a local time at an offset from UTC; second 60 is a leap second after 59. -/
def ofParts (p : Parts) (offset : Int) : Except Fault Timestamp :=
  let date : Calendar.Date := ⟨p.year, p.month, p.day⟩
  if ¬ (yearInRange p.year && date.exists) then .error .outOfRange
  else if ¬ (-86400 < offset ∧ offset < 86400) then .error .outOfRange
  else
    let second := min p.second 59
    let nanos := p.nanos + (p.second - second) * 1000000000
    let seconds := date.toDays * 86400 + (p.hour * 3600 + p.minute * 60 + second : Nat) - offset
    if yearInRange (Calendar.yearOfDays (seconds / 86400)) then .ok ⟨seconds, nanos⟩
    else .error .impossible

/-- The separator between date and time. -/
def dateSeparator : Reader Unit
  | c :: rest => if c = 'T' ∨ c = 't' ∨ c = ' ' then .ok ((), rest) else .error .invalid
  | [] => .error .tooShort

/-- The greatest offset of RFC 3339, in seconds. -/
def greatestOffset : Int := (23 * 60 + 59) * 60

/-- The length of a date and a time of day in RFC 3339, without fraction and offset. -/
def plainLength : Nat := 19

/-- Fails unless something is within its range. -/
def demand (withinRange : Bool) : Except Fault Unit :=
  if withinRange then .ok () else .error .outOfRange

/-- A date in RFC 3339, which has to exist. -/
def plainDate : Reader Calendar.Date := fun cs => do
  let (year, cs) ← number 4 (some 4) cs
  let ((), cs) ← char '-' cs
  let (month, cs) ← number 2 (some 2) cs
  let ((), cs) ← char '-' cs
  let (day, cs) ← number 2 (some 2) cs
  let date : Calendar.Date := ⟨year, month, day⟩
  demand date.exists
  return (date, cs)

/-- A time of day in RFC 3339: hour, minute, second and nanoseconds. -/
def plainTime : Reader (Nat × Nat × Nat × Nat) := fun cs => do
  let (hour, cs) ← number 2 (some 2) cs
  let ((), cs) ← char ':' cs
  let (minute, cs) ← number 2 (some 2) cs
  let ((), cs) ← char ':' cs
  let (second, cs) ← number 2 (some 2) cs
  let (nanos, cs) ← fraction cs
  demand (hour ≤ 23 && minute ≤ 59 && second ≤ 60)
  return ((hour, minute, second, nanos), cs)

/-- Reads RFC 3339. A text that is too short for any timestamp is refused as such. -/
def ofRfc3339 (s : String) : Except Fault Timestamp := do
  if byteLength s.toList < plainLength then .error .tooShort
  else
    let (date, cs) ← plainDate s.toList
    let ((), cs) ← dateSeparator cs
    let ((hour, minute, second, nanos), cs) ← plainTime cs
    let (shift, cs) ← offset (char ':') cs
    if cs ≠ [] then .error .tooLong
    else
      demand (-greatestOffset ≤ shift && shift ≤ greatestOffset)
      ofParts ⟨date.year, date.month, date.day, hour, minute, second, nanos⟩ shift

/-- A year: up to four digits, or a sign and any number of digits. -/
def signedYear : Reader Int := fun cs =>
  match cs with
  | '-' :: rest => do
    let (n, rest) ← number 1 none rest
    .ok (-(n : Int), rest)
  | '+' :: rest => do
    let (n, rest) ← number 1 none rest
    .ok ((n : Int), rest)
  | _ => do
    let (n, rest) ← number 1 (some 4) cs
    .ok ((n : Int), rest)

/-- A part with blanks before it. -/
def spaced {α : Type} (reader : Reader α) : Reader α := fun cs => reader (Text.trimStart cs)

/-- A date whose parts are read by `wrap`, which may allow blanks before the hyphens. -/
def looseDate (hyphen : Reader Unit) : Reader (Int × Nat × Nat) := fun cs => do
  let short := number 1 (some 2)
  let (year, cs) ← spaced signedYear cs
  let ((), cs) ← hyphen cs
  let (month, cs) ← bounded 1 12 (spaced short) cs
  let ((), cs) ← hyphen cs
  let (day, cs) ← bounded 1 31 (spaced short) cs
  .ok ((year, month, day), cs)

/-- A time of day; `colon` reads what stands between its parts. -/
def looseTime (colon : Reader Unit) : Reader (Nat × Nat × Nat × Nat) := fun cs => do
  let short := number 1 (some 2)
  let (hour, cs) ← bounded 0 23 (spaced short) cs
  let ((), cs) ← colon cs
  let (minute, cs) ← bounded 0 59 (spaced short) cs
  let ((), cs) ← colon cs
  let (second, cs) ← bounded 0 60 (spaced short) cs
  let (nanos, cs) ← fraction cs
  .ok ((hour, minute, second, nanos), cs)

/-- Drops blanks and colons between the hours and minutes of an offset. -/
def looseColon : Reader Unit := fun cs => .ok ((), cs.dropWhile fun c => c = ':' || Text.isBlank c)

/-- An offset, or `UTC` in any case. -/
def zone : Reader Int := fun cs =>
  if (cs.take 3).map Char.toUpper = ['U', 'T', 'C'] then .ok (0, cs.drop 3)
  else offset looseColon cs

/-- Reads the relaxed form of RFC 3339. -/
def ofRelaxed (s : String) : Except Fault Timestamp := do
  let ((year, month, day), cs) ← looseDate (spaced (char '-')) s.toList
  let ((), cs) ← dateSeparator cs
  let ((hour, minute, second, nanos), cs) ← looseTime (spaced (char ':')) cs
  let (shift, cs) ← spaced zone cs
  if Text.trimStart cs ≠ [] then .error .tooLong
  else ofParts ⟨year, month, day, hour, minute, second, nanos⟩ shift

/-- Reads a date and time without a zone. -/
def ofZoneless (s : String) : Except Fault Timestamp := do
  let ((year, month, day), cs) ← looseDate (char '-') s.toList
  let ((), cs) ← char 'T' cs
  let ((hour, minute, second, nanos), cs) ← looseTime (char ':') cs
  if cs ≠ [] then .error .tooLong
  else ofParts ⟨year, month, day, hour, minute, second, nanos⟩ 0

/-- Reads the timestamp of a stored value: RFC 3339, else a zone-less time, between blanks. -/
def ofText? (s : String) : Option Timestamp :=
  let trimmed := Text.trim s
  match ofRfc3339 trimmed with
  | .ok t => some t
  | .error _ => (ofZoneless trimmed).toOption

end CertWatch.Timestamp
