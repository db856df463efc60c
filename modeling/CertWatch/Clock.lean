/-!
# Clock time

Instants are natural numbers: nanoseconds since a common beginning. Lengths of time are their
differences. There is no last instant: a sum that a machine's clock cannot hold, such as a deadline
that is 2^64 seconds away, is an instant like any other here, where the program would panic. A timer
rings on whole milliseconds and never early, and a pause lasts thirty years at most. A ticker is due
again and again: a tick that is taken too late moves all later ones.
-/

namespace CertWatch
set_option autoImplicit false

namespace Clock

/-- One millisecond. -/
def millisecond : Nat := 1000000

/-- One second. -/
def second : Nat := 1000 * millisecond

/-- The first whole millisecond that is not before an instant: when a timer for it rings. -/
def ring (t : Nat) : Nat := (t + (millisecond - 1)) / millisecond * millisecond

/-- Whether a timer for an instant has rung. -/
def reached (now due : Nat) : Bool := ring due ≤ now

/-- The whole milliseconds since the beginning. -/
def toMilliseconds (t : Nat) : Nat := t / millisecond

/-- The longest pause: thirty years of 365 days. -/
def longestPause : Nat := 30 * 365 * 86400 * second

/-- The end of a pause that begins now. One that is meant to be longer than the longest is cut
short. -/
def afterPause (now length : Nat) : Nat := now + min length longestPause

theorem le_ring (t : Nat) : t ≤ ring t := by
  simp only [ring, millisecond]; omega

theorem ring_lt (t : Nat) : ring t < t + millisecond := by
  simp only [ring, millisecond]; omega

theorem second_pos : 0 < second := by simp [second, millisecond]

theorem ring_mul (n : Nat) : ring (n * millisecond) = n * millisecond := by
  simp only [ring, millisecond]; omega

end Clock

/-- A ticker: the instant when it is due next, and the time from one tick to the next. -/
structure Ticker where
  due : Nat
  period : Nat
  deriving DecidableEq, Repr

namespace Ticker

/-- How late a tick may be taken without moving the later ones. -/
def grace : Nat := 5 * Clock.millisecond

/-- The ticker after a tick was taken: due one period after this one was due, or after it was taken
if that was late. -/
def take (t : Ticker) (now : Nat) : Ticker :=
  { t with due := (if t.due + grace < now then now else t.due) + t.period }

end Ticker
end CertWatch
