import CertWatch.Digest
import CertWatch.Envelope

/-!
# Records

A record is one key with everything a listener needs: the bytes as stored, the value they hold and
when it was modified. Its digest covers the key and the value only, so sealing the same value again,
or a new modification time, is no change.
-/

namespace CertWatch
set_option autoImplicit false

/-- One key, read and unwrapped. -/
structure Record where
  key : String
  raw : Bytes
  value : Bytes
  modified : Option Timestamp
  digest : Digest
  deriving DecidableEq

namespace Record

/-- The digest of a key and its value. -/
def digestOf (key : String) (value : Bytes) : Digest := Digest.ofFields [Utf8.encode key, value]

/-- The record of a key whose stored bytes hold the envelope. -/
def ofEnvelope (key : String) (raw : Bytes) (e : Envelope) : Record :=
  ⟨key, raw, e.value, e.modified, digestOf key e.value⟩

end Record
end CertWatch
