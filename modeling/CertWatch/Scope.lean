import CertWatch.Plan
import CertWatch.Record
import CertWatch.Sealing

/-!
# Scopes

A scope is a namespace seen with a key for sealed values. It lists the keys of the namespace and
reads each of them into a record. Only a call that fails makes reading fail: a missing key reads as
empty bytes, sealed bytes that cannot be opened are substituted, and a malformed envelope reads as
empty.
-/

namespace CertWatch
set_option autoImplicit false

/-- A namespace and the key of its sealed values, if they are sealed. -/
structure Scope where
  name : String
  sealKey : Option SealKey := none

/-- What reading one key gives: the bytes as stored and the bytes of the envelope. -/
structure Fetched where
  raw : Bytes
  payload : Bytes
  deriving DecidableEq, Repr

namespace Fetched

/-- The envelope. -/
def envelope (f : Fetched) : Envelope := .parseOrEmpty f.payload

/-- The record of a key with this content. -/
def record (f : Fetched) (key : String) : Record := .ofEnvelope key f.raw f.envelope

end Fetched

namespace Scope

/-- The pattern of the keys in a scope. -/
def pattern (s : Scope) : String := s.name ++ "*"

/-- Brings a listing into order: ascending, each key once, none empty. -/
def tidy (keys : List String) : List String :=
  (Table.ofList ((keys.filter (· ≠ "")).map fun k => (k, ()))).keys

/-- The keys of the scope. -/
def keys (s : Scope) : Plan (List String) := do return tidy (← Plan.ask (.list s.pattern))

/-- The bytes of the envelope in stored bytes. -/
def unwrap (s : Scope) (key : String) (raw : Bytes) : Plan Bytes :=
  match s.sealKey with
  | none => pure raw
  | some k =>
    if raw = [] then pure raw
    else match k.openSealed raw with
      | .ok plain => pure plain
      | .error failure => do return (← Plan.substitute key failure).getD []

/-- Reads a key. -/
def fetch (s : Scope) (key : String) : Plan Fetched := do
  let raw := (← Plan.ask (.get key)).getD []
  return ⟨raw, ← s.unwrap key raw⟩

/-- Reads a key into a record. -/
def record (s : Scope) (key : String) : Plan Record := do return (← s.fetch key).record key

/-- The records of all keys, in their order. -/
def records (s : Scope) : Plan (List Record) := do (← s.keys).mapM s.record

end Scope
end CertWatch
