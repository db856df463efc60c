import CertWatch.Digest.Sha256

/-!
# Content digests

Two contents count as the same when their digests agree. A digest covers a list of fields, each
preceded by its length, so that no two different lists feed the same bytes to the hash.
-/

namespace CertWatch
set_option autoImplicit false

/-- The SHA-256 digest of a content. -/
structure Digest where
  bytes : Bytes
  length_bytes : bytes.length = 32 := by simp
  deriving DecidableEq

namespace Digest

/-- The bytes hashed for one field: its length in eight bytes, lowest first, and the field. -/
def frame (field : Bytes) : Bytes := Bytes.littleEndian 8 field.length ++ field

/-- The bytes hashed for a list of fields. -/
def message (fields : List Bytes) : Bytes := fields.flatMap frame

/-- The digest of a list of fields. -/
def ofFields (fields : List Bytes) : Digest := ⟨Sha256.hash (message fields), Sha256.length_hash _⟩

/-- The digest in hexadecimal. -/
def toHex (d : Digest) : String := Bytes.toHex d.bytes

/-- The short form shown to a developer: the first twelve hexadecimal digits. -/
def summary (d : Digest) : String :=
  "ContentHash(" ++ String.ofList (d.toHex.toList.take 12) ++ ")"

end Digest
end CertWatch
