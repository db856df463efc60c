import CertWatch.Bytes

/-!
# AES-256

The block cipher with a key of thirty-two bytes, in the enciphering direction only: counter mode
needs no other. A block is a list of sixteen bytes, four to a column.
-/

namespace CertWatch.Aes
set_option autoImplicit false

/-- Multiplication by `x` in the field of 256 elements. -/
def double (b : UInt8) : UInt8 := (b <<< 1) ^^^ (if b < 0x80 then 0 else 0x1B)

/-- Multiplication in the field of 256 elements, over the `n` low bits of `b`. -/
def multiply : Nat → UInt8 → UInt8 → UInt8
  | 0, _, _ => 0
  | n + 1, a, b => (if b % 2 = 1 then a else 0) ^^^ multiply n (double a) (b >>> 1)

/-- The power `a ^ (2 ^ (n + 1) - 2)`; for `n = 7` the inverse of an element other than zero. -/
def inverse : Nat → UInt8 → UInt8
  | 0, _ => 1
  | n + 1, a => let square := multiply 8 a a; multiply 8 square (inverse n square)

/-- The substitution of one byte: its inverse, then an affine map of the bits. -/
def substitute (b : UInt8) : UInt8 :=
  let i := inverse 7 b
  let turn (n : UInt8) := (i <<< n) ||| (i >>> (8 - n))
  i ^^^ turn 1 ^^^ turn 2 ^^^ turn 3 ^^^ turn 4 ^^^ 0x63

/-- All substitutions, by the value of the byte. -/
def box : Array UInt8 := ((List.range 256).map fun n => substitute (UInt8.ofNat n)).toArray

/-- The substitution of one byte, looked up. -/
def sub (b : UInt8) : UInt8 := box.getD b.toNat 0

/-- The round keys that follow four-byte words `w`, the last eight of which are `window`; `i` counts
the words. -/
def expandFrom : Nat → Nat → UInt8 → List Bytes → List Bytes
  | 0, _, _, _ => []
  | n + 1, i, rcon, window =>
    let last := window.getD 7 []
    let turned :=
      if i % 8 = 0 then
        match (last.drop 1 ++ last.take 1).map sub with
        | [] => []
        | b :: rest => (b ^^^ rcon) :: rest
      else if i % 8 = 4 then last.map sub
      else last
    let word := Bytes.xor (window.getD 0 []) turned
    word :: expandFrom n (i + 1) (if i % 8 = 0 then double rcon else rcon) (window.drop 1 ++ [word])

/-- The fifteen round keys of a key of thirty-two bytes. -/
def roundKeys (key : Bytes) : List Bytes :=
  let words := Bytes.chunks 3 key
  Bytes.chunks 15 (words ++ expandFrom 52 8 1 words).flatten

/-- Row `r` is turned left by `r` columns. -/
def shiftRows (block : Bytes) : Bytes :=
  [0, 5, 10, 15, 4, 9, 14, 3, 8, 13, 2, 7, 12, 1, 6, 11].map fun i => block.getD i 0

/-- Multiplies one column by the circulant matrix of `2, 3, 1, 1`. -/
def mixColumn : Bytes → Bytes
  | [a, b, c, d] =>
    let all := a ^^^ b ^^^ c ^^^ d
    [a ^^^ all ^^^ double (a ^^^ b), b ^^^ all ^^^ double (b ^^^ c),
     c ^^^ all ^^^ double (c ^^^ d), d ^^^ all ^^^ double (d ^^^ a)]
  | other => other

/-- One inner round. -/
def round (block key : Bytes) : Bytes :=
  Bytes.xor ((Bytes.chunks 3 (shiftRows (block.map sub))).flatMap mixColumn) key

/-- Enciphers one block under expanded keys. -/
def encipher (keys : List Bytes) (block : Bytes) : Bytes :=
  let whitened := Bytes.xor block (keys.getD 0 [])
  let inner := ((keys.drop 1).take 13).foldl round whitened
  Bytes.xor (shiftRows (inner.map sub)) (keys.getD 14 [])

end CertWatch.Aes
