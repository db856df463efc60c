import CertWatch.Base64
import CertWatch.Cipher.Gcm
import CertWatch.Failure
import CertWatch.Text.Blank
import CertWatch.Text.Utf8

/-!
# Sealed values

A value may be stored sealed under a key of thirty-two bytes: a nonce of twelve bytes, the
ciphertext, and a tag of sixteen bytes. Opening is a function of the key and the bytes, so a failure
to open is final and nobody tries again.
-/

namespace CertWatch
set_option autoImplicit false

/-- The length of a nonce. -/
def nonceLength : Nat := 12

/-- The length of an authentication tag. -/
def tagLength : Nat := 16

/-- The length of a key. -/
def keyLength : Nat := 32

/-- A key that seals and opens values. -/
structure SealKey where
  bytes : Bytes
  length_bytes : bytes.length = keyLength
  deriving DecidableEq

namespace SealKey

/-- The key for bytes of the right length. -/
def ofBytes? (bytes : Bytes) : Option SealKey :=
  if h : bytes.length = keyLength then some ⟨bytes, h⟩ else none

/-- Reads a secret: thirty-two bytes of UTF-8 are the key themselves, any other secret is base64 of
the key, with white space around it allowed. -/
def ofSecret (secret : String) : Except Failure SealKey :=
  let raw := Utf8.encode secret
  match ofBytes? raw with
  | some key => .ok key
  | none =>
    match Base64.decode? (Text.trim secret) with
    | none =>
      .error (.validation
        (s!"AES key must be {keyLength} bytes or base64 of {keyLength} bytes, " ++
          s!"got {raw.length} bytes"))
    | some decoded =>
      match ofBytes? decoded with
      | some key => .ok key
      | none =>
        .error (.validation s!"AES key must decode to {keyLength} bytes, got {decoded.length}")

/-- Seals a plaintext under a nonce. -/
def sealWith (key : SealKey) (nonce plain : Bytes) : Bytes :=
  nonce ++ Gcm.encrypt key.bytes nonce plain

/-- Opens a sealed value; the failure carries the whole value. -/
def openSealed (key : SealKey) (sealed : Bytes) : Except DecryptFailure Bytes :=
  if sealed.length < nonceLength + tagLength then
    .error ⟨sealed,
      s!"ciphertext too short: {sealed.length} bytes, need at least {nonceLength + tagLength}"⟩
  else
    match Gcm.decrypt? key.bytes (sealed.take nonceLength) (sealed.drop nonceLength) with
    | some plain => .ok plain
    | none => .error ⟨sealed, "aead::Error"⟩

/-- What a developer sees of a key: nothing of it. -/
def summary (_ : SealKey) : String := "EnvelopeCrypto { .. }"

end SealKey
end CertWatch
