import CertWatch.Changes
import CertWatch.Scope
import CertWatch.Text.Quoted

/-!
# Watching records

The watch remembers the digest of every key that its last successful poll read. A poll reads all
keys of a scope, compares them with the memory and replaces it; a poll that fails changes nothing.
-/

namespace CertWatch
set_option autoImplicit false

/-- The changes of records: removals are keys. -/
abbrev RecordChanges := ChangeSet Record String

/-- The digests by key. -/
structure RecordWatch where
  known : Table String Digest := .empty

namespace RecordWatch

/-- The keys that are known, in ascending order. -/
def keys (w : RecordWatch) : List String := w.known.keys

/-- Takes over the records of a poll; the answer is what changed. -/
def commit (w : RecordWatch) (current : List Record) : RecordWatch × RecordChanges :=
  (⟨.ofList (current.map fun r => (r.key, r.digest))⟩,
    .between w.known Record.digest (current.map fun r => (r.key, r)))

/-- Reads a scope and takes its records over. -/
def poll (w : RecordWatch) (scope : Scope) : Plan (RecordWatch × RecordChanges) := do
  return w.commit (← scope.records)

/-- What a developer sees of a watch with some listeners. -/
def summary (scope : Scope) (events : String) : String :=
  s!"RecordSynchronizer \x7b namespace: {Text.quoted scope.name}, events: {events} \x7d"

end RecordWatch
end CertWatch
