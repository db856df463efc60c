import CertWatch.Base64
import CertWatch.Failure
import CertWatch.Json.Value
import CertWatch.Time.Reading

/-!
# Envelopes

A stored value is wrapped in a JSON object with the members `value`, base64 of the content, and
`modified`, a timestamp. Reading skips anything before the first brace, treats blank bytes as an
empty envelope, and takes a member that is missing or has another form as absent.
-/

namespace CertWatch
set_option autoImplicit false

/-- An unwrapped value and when it was modified. -/
structure Envelope where
  value : Bytes := []
  modified : Option Timestamp := none
  deriving DecidableEq, Repr

namespace Envelope

/-- The envelope of a JSON object. -/
def ofJson (object : Json) : Envelope where
  value := (((object.member? "value").bind Json.text?).bind Base64.decode?).getD []
  modified := ((object.member? "modified").bind Json.text?).bind Timestamp.ofText?

/-- The part of a text from its first opening brace. -/
def fromBrace (cs : List Char) : List Char := cs.dropWhile (· ≠ '{')

/-- Reads an envelope. -/
def parse (bytes : Bytes) : Except Failure Envelope :=
  let text := (Utf8.decodeLossy bytes).toList
  if text.all Text.isBlank then .ok {}
  else if fromBrace text = [] then .error (.malformedEnvelope "no JSON object found")
  else
    match Json.parse? (Utf8.encodeChars (fromBrace text)) with
    | some object => .ok (ofJson object)
    | none => .error (.malformedEnvelope "the text from the first brace is not JSON")

/-- Writes an envelope: the members in the order of their names, without spaces. -/
def encodeText (e : Envelope) : List Char :=
  let value := "\"value\":\"".toList ++ Base64.encodeChars e.value ++ ['"']
  let modified := match e.modified with
    | some t => "\"modified\":\"".toList ++ t.toOffsetText.toList ++ ['"', ',']
    | none => []
  '{' :: modified ++ value ++ ['}']

/-- The bytes of a written envelope. -/
def encode (e : Envelope) : Bytes := Utf8.encodeChars e.encodeText

/-- Reads an envelope, a malformed one as empty. -/
def parseOrEmpty (bytes : Bytes) : Envelope :=
  match parse bytes with
  | .ok e => e
  | .error _ => {}

end Envelope
end CertWatch
