/-!
# Numbers in JSON texts

A numeral is kept as an integer if it has neither fraction nor exponent and fits into sixty-four
bits, with or without a sign; every other numeral becomes a double. The digits are gathered into a
significand as long as it stays below 2^64, the remaining ones only shift the exponent, and the
significand is then scaled by a rounded power of ten, each step rounding to the nearest double. A
numeral whose double would be infinite has no value.
-/

namespace CertWatch.Json
set_option autoImplicit false

/-- The bound of numbers that fit into sixty-four bits, 2 to the 64th. -/
def wordBound : Nat := 0x10000000000000000

/-- The size of a finite double, `mantissa * 2 ^ exponent`. -/
structure Magnitude where
  mantissa : Nat
  exponent : Int
  deriving DecidableEq, Repr

namespace Magnitude

/-- The least mantissa of a double that uses all fifty-three bits, 2 to the 52nd. -/
def leastFull : Nat := 0x10000000000000

/-- Zero. -/
def zero : Magnitude := ⟨0, -1074⟩

/-- The quotient `num / (den * 2 ^ e)`, rounded down, and twice the remainder compared with the
divisor. -/
def divide (num den : Nat) (e : Int) : Nat × Ordering :=
  let n := if e < 0 then num <<< e.natAbs else num
  let d := if e < 0 then den else den <<< e.natAbs
  (n / d, compare (2 * (n % d)) d)

/-- The exponent at which `num / den` has a mantissa of fifty-three bits, or the least one. -/
def exponentOf (num den : Nat) : Int :=
  let guess : Int := (num.log2 : Int) - den.log2 - 52
  let e := if (divide num den guess).1 < leastFull then guess - 1 else guess
  max e (-1074)

/-- The double nearest to `num / den`, the even one of two; none if it is too large. -/
def nearest (num den : Nat) : Option Magnitude :=
  if num = 0 then some zero
  else
    let e := exponentOf num den
    let (q, rest) := divide num den e
    let up := match rest with
      | .lt => false
      | .gt => true
      | .eq => q % 2 = 1
    let q := if up then q + 1 else q
    let m : Magnitude := if q = 2 * leastFull then ⟨leastFull, e + 1⟩ else ⟨q, e⟩
    if m.exponent > 971 then none else some m

/-- The rounded product. -/
def mul (a b : Magnitude) : Option Magnitude :=
  let e := a.exponent + b.exponent
  let m := a.mantissa * b.mantissa
  if e < 0 then nearest m (1 <<< e.natAbs) else nearest (m <<< e.natAbs) 1

/-- The rounded quotient. -/
def div (a b : Magnitude) : Option Magnitude :=
  let e := a.exponent - b.exponent
  if e < 0 then nearest a.mantissa (b.mantissa <<< e.natAbs)
  else nearest (a.mantissa <<< e.natAbs) b.mantissa

/-- The double nearest to a power of ten. -/
def powerOfTen (n : Nat) : Option Magnitude := nearest (Nat.pow 10 n) 1

/-- Scales by a power of ten, in steps of at most 308. -/
def scale (f : Magnitude) (e : Int) : Option Magnitude :=
  if e < -308 then
    if f.mantissa = 0 then some zero
    else do
      let g ← f.div (← powerOfTen 308)
      scale g (e + 308)
  else if e < 0 then do f.div (← powerOfTen e.natAbs)
  else if e ≤ 308 then do f.mul (← powerOfTen e.natAbs)
  else if f.mantissa = 0 then some zero
  else none
  termination_by e.natAbs
  decreasing_by omega

/-- The bits of the double with a sign. -/
def bits (negative : Bool) (m : Magnitude) : UInt64 :=
  let size := if m.mantissa < leastFull then m.mantissa
    else (m.exponent + 1075).toNat <<< 52 ||| (m.mantissa - leastFull)
  UInt64.ofNat ((if negative then 1 <<< 63 else 0) ||| size)

end Magnitude

/-- A number as it is held: an integer or the bits of a double. -/
inductive Number where
  | int (n : Int)
  | double (bits : UInt64)
  deriving DecidableEq, Repr

/-- A numeral by its digits: sign, whole part, fraction, and sign and digits of the exponent. -/
structure Numeral where
  negative : Bool
  whole : List Nat
  fraction : Option (List Nat)
  exponent : Option (Bool × List Nat)
  deriving DecidableEq, Repr

namespace Numeral

/-- Appends digits to a significand while it stays below 2^64; the rest is returned. -/
def gather : Nat → List Nat → Nat × List Nat
  | sig, [] => (sig, [])
  | sig, d :: rest =>
    if sig * 10 + d < wordBound then gather (sig * 10 + d) rest else (sig, d :: rest)

/-- The bound of exponents, 2 to the 31st. -/
def exponentBound : Nat := 0x80000000

/-- The digits of an exponent as a number, capped at the bound. -/
def exponentValue (digits : List Nat) : Nat :=
  digits.foldl (fun n d => min (n * 10 + d) exponentBound) 0

/-- The double of a significand and a decimal exponent. -/
def toDouble (negative : Bool) (sig : Nat) (e : Int) : Option Number := do
  let f ← Magnitude.nearest sig 1
  let g ← f.scale e
  return .double (g.bits negative)

/-- The number that a numeral stands for. -/
def value? (x : Numeral) : Option Number :=
  let (sig, left) := gather 0 x.whole
  let (sig', left') := gather sig (x.fraction.getD [])
  let taken := (x.fraction.getD []).length - left'.length
  let e : Int := (left.length : Int) - taken
  match x.exponent with
  | some (negative, digits) =>
    let n := exponentValue digits
    if n = exponentBound then
      if sig' ≠ 0 ∧ ¬ negative then none else some (.double (Magnitude.zero.bits x.negative))
    else toDouble x.negative sig' (if negative then e - n else e + n)
  | none =>
    if x.fraction.isSome ∨ left ≠ [] then toDouble x.negative sig' e
    else if ¬ x.negative then some (.int sig)
    else if sig = 0 ∨ wordBound < 2 * sig then toDouble true sig 0
    else some (.int (-(sig : Int)))

end Numeral
end CertWatch.Json
