import CertWatch.Cipher.Aes

/-!
# AES-256 in Galois/counter mode

`encrypt` enciphers a plaintext by a counter mode key stream and appends a tag of sixteen bytes over
the ciphertext; `decrypt?` recomputes the tag and refuses on any difference. Nonces have twelve
bytes and there is no associated data.
-/

namespace CertWatch.Gcm
set_option autoImplicit false

/-- Halves an element of the field of 2^128 elements, written with the constant term in the highest
bit. -/
def halve (v : Nat) : Nat := (v >>> 1) ^^^ (if v % 2 = 1 then 0xE1 <<< 120 else 0)

/-- The product of `v` with the field element whose `n` highest remaining bits are the bits of `x`
below position `n`. -/
def multiplyBits : Nat → Nat → Nat → Nat
  | 0, _, _ => 0
  | n + 1, x, v => (if x.testBit n then v else 0) ^^^ multiplyBits n x (halve v)

/-- Multiplication in the field of 2^128 elements. -/
def multiply (x y : Nat) : Nat := multiplyBits 128 x y

/-- Extends a short last block with zeros. -/
def fill (block : Bytes) : Bytes := block ++ List.replicate (16 - block.length) 0

/-- The authentication hash of a ciphertext under the hash key `h`. -/
def authenticate (h : Nat) (cipher : Bytes) : Nat :=
  let lengths := Bytes.bigEndian 16 (8 * cipher.length)
  ((Bytes.chunks 15 cipher).map fill ++ [lengths]).foldl
    (fun y block => multiply (y ^^^ Bytes.toNat block) h) 0

/-- The counter block `n` of a nonce. -/
def counter (iv : Bytes) (n : Nat) : Bytes := iv ++ Bytes.bigEndian 4 n

/-- A key stream of `blocks` blocks, from counter `n` on. -/
def stream (keys : List Bytes) (iv : Bytes) : Nat → Nat → Bytes
  | 0, _ => []
  | blocks + 1, n => Aes.encipher keys (counter iv n) ++ stream keys iv blocks (n + 1)

/-- Enciphers, and just so deciphers, a text by the key stream. -/
def crypt (keys : List Bytes) (iv text : Bytes) : Bytes :=
  Bytes.xor text (stream keys iv ((text.length + 15) / 16) 2)

/-- The tag of a ciphertext. -/
def tag (keys : List Bytes) (iv cipher : Bytes) : Bytes :=
  let h := Bytes.toNat (Aes.encipher keys (List.replicate 16 0))
  Bytes.xor (Bytes.bigEndian 16 (authenticate h cipher)) (Aes.encipher keys (counter iv 1))

/-- Enciphers a plaintext and appends the tag. -/
def encrypt (key iv plain : Bytes) : Bytes :=
  let keys := Aes.roundKeys key
  let cipher := crypt keys iv plain
  cipher ++ tag keys iv cipher

/-- Deciphers what `encrypt` wrote, or refuses. -/
def decrypt? (key iv sealed : Bytes) : Option Bytes :=
  let keys := Aes.roundKeys key
  let cipher := sealed.take (sealed.length - 16)
  if sealed.drop (sealed.length - 16) = tag keys iv cipher then some (crypt keys iv cipher)
  else none

end CertWatch.Gcm
