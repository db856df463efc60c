import CertWatch.Time.Calendar

/-!
# Timestamps

An instant of the calendar to the nanosecond, in UTC. A leap second keeps the number of the second
before it and has a fraction of a whole second or more.
-/

namespace CertWatch
set_option autoImplicit false

/-- An instant: the seconds since the start of the year 0, and nanoseconds into that second, up to
two seconds' worth when a leap second follows. -/
structure Timestamp where
  seconds : Int
  nanos : Nat
  deriving DecidableEq, Repr

namespace Timestamp

/-- The order of time: by second, then by nanosecond. -/
def before (a b : Timestamp) : Bool :=
  decide (a.seconds < b.seconds) || (a.seconds == b.seconds && decide (a.nanos < b.nanos))

/-- The later of two optional instants, an absent one being earlier than all others. -/
def latest : Option Timestamp → Option Timestamp → Option Timestamp
  | none, b => b
  | some a, none => some a
  | some a, some b => if a.before b then some b else some a

/-- Whether `a` is strictly earlier than `b`, an absent instant being earlier than all others. -/
def earlier : Option Timestamp → Option Timestamp → Bool
  | none, some _ => true
  | some a, some b => a.before b
  | _, none => false

/-- A number in at least `width` decimal digits. -/
def padded (width n : Nat) : List Char :=
  let digits := Nat.toDigits 10 n
  List.replicate (width - digits.length) '0' ++ digits

/-- A year in four digits, with a sign and as many as needed outside of 0 to 9999. -/
def yearText (year : Int) : List Char :=
  if 0 ≤ year ∧ year ≤ 9999 then padded 4 year.toNat
  else (if year < 0 then '-' else '+') :: padded 4 year.natAbs

/-- A fraction of a second in the fewest of 0, 3, 6 or 9 digits that are exact. -/
def fractionText (nanos : Nat) : List Char :=
  if nanos = 0 then []
  else if nanos % 1000000 = 0 then '.' :: padded 3 (nanos / 1000000)
  else if nanos % 1000 = 0 then '.' :: padded 6 (nanos / 1000)
  else '.' :: padded 9 nanos

/-- The instant as `YYYY-MM-DDTHH:MM:SS` with its fraction; a leap second is numbered 60. -/
def localText (t : Timestamp) : List Char :=
  let date := Calendar.Date.ofDays (t.seconds / 86400)
  let inDay := (t.seconds % 86400).toNat
  let leap := if t.nanos < 1000000000 then 0 else 1
  yearText date.year ++ '-' :: padded 2 date.month ++ '-' :: padded 2 date.day ++
    'T' :: padded 2 (inDay / 3600) ++ ':' :: padded 2 (inDay / 60 % 60) ++
    ':' :: padded 2 (inDay % 60 + leap) ++ fractionText (t.nanos % 1000000000)

/-- RFC 3339 text with a numeric offset. -/
def toOffsetText (t : Timestamp) : String := String.ofList (t.localText ++ "+00:00".toList)

/-- RFC 3339 text with the zone letter. -/
def toZuluText (t : Timestamp) : String := String.ofList (t.localText ++ ['Z'])

end Timestamp
end CertWatch
