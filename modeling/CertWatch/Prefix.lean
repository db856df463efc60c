import CertWatch.Config.Text

/-!
# Stored prefixes

A namespace prefix that was generated for a host is kept in the store with the time of its creation,
so that every process on the host and every restart use the same one.
-/

namespace CertWatch
set_option autoImplicit false

/-- A prefix as it is stored. -/
structure StoredPrefix where
  value : String := ""
  createdAt : Option Timestamp := none
  deriving DecidableEq, Repr

namespace StoredPrefix

/-- Whether the prefix can be used: it is not blank, has a creation time, and that is not before the
cutoff. -/
def isUsable (p : StoredPrefix) (refreshBefore : Option Timestamp) : Bool :=
  !Text.blank p.value &&
  match p.createdAt, refreshBefore with
  | none, _ => false
  | some _, none => true
  | some created, some cutoff => !created.before cutoff

/-- Reads a stored prefix. -/
def read (bs : Bytes) : Option StoredPrefix := do
  let field ← Json.fields? ["value", "createdAt"] bs
  return {
    value := ← Json.fieldOr "" Json.readString (field "value")
    createdAt := ← Json.fieldOr none (Json.readOption Timestamp.read) (field "createdAt") }

/-- The JSON text of a stored prefix. -/
def text (p : StoredPrefix) : List Char :=
  Json.recordText [
    ("value", Json.quote p.value),
    ("createdAt", Json.optionText Timestamp.jsonText p.createdAt)]

/-- The bytes of a stored prefix. -/
def encode (p : StoredPrefix) : Bytes := Utf8.encodeChars p.text

/-- The prefix in stored bytes, if they hold one that can be used. -/
def usableIn? (refreshBefore : Option Timestamp) (stored : Option Bytes) : Option String := do
  let p ← read (← stored)
  if p.isUsable refreshBefore then some p.value else none

end StoredPrefix

namespace NamespaceConfig

/-- The key under which the host's prefix is stored. -/
def prefixKey (c : NamespaceConfig) : String := c.host ++ ":key:prefix:namespace:v1"

/-- The resource whose lease allows a prefix to be created. -/
def lockResource (c : NamespaceConfig) : String := c.prefixKey ++ ":lock"

end NamespaceConfig
end CertWatch
