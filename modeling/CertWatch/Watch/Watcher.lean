import CertWatch.Bus
import CertWatch.Line
import CertWatch.Watch.Bundles
import CertWatch.Watch.Records

/-!
# Watchers

A watcher watches the records or the bundles of a scope for listeners. Its polls come one after the
other, and changes are told while a poll has its turn, so listeners hear of them in the order of the
snapshots. A poll that fails changes nothing and tells nothing.
-/

namespace CertWatch
set_option autoImplicit false

/-- Changes that a watcher found. -/
inductive Changes where
  | records (changes : RecordChanges)
  | bundles (changes : BundleChanges)

namespace Changes

/-- The number of changes. -/
def size : Changes → Nat
  | records c => c.size
  | bundles c => c.size

/-- Whether nothing changed. -/
def isEmpty : Changes → Bool
  | records c => c.isEmpty
  | bundles c => c.isEmpty

end Changes

/-- What a watcher remembers. -/
inductive Memory where
  | records (watch : RecordWatch)
  | bundles (config : BundleConfig) (watch : BundleWatch)

namespace Memory

/-- The memory of a watcher of records that has not polled. -/
def ofRecords : Memory := .records {}

/-- The memory of a watcher of bundles that has not polled, if the settings are acceptable. -/
def ofBundles (c : BundleConfig) : Except Failure Memory :=
  (Config.orFail c.validate).map fun _ => .bundles c {}

/-- Polls a scope. -/
def poll (scope : Scope) : Memory → Plan (Memory × Changes)
  | records w => do
    let (w, c) ← w.poll scope
    return (records w, .records c)
  | bundles config w => do
    let (w, c) ← w.poll config scope
    return (bundles config w, .bundles c)

/-- The name of the watch in notices. -/
def name : Memory → String
  | records _ => "records"
  | bundles .. => "groups"

end Memory

/-- A watcher. -/
structure Watcher where
  scope : Scope
  memory : Memory
  /-- Those who poll, or wait until they can. -/
  turn : Line := {}
  /-- Tells listeners of changes, with the instant of the poll. -/
  bus : Bus (Nat × Changes) := {}

namespace Watcher

/-- The plan of a poll. -/
def plan (w : Watcher) : Plan (Memory × Changes) := w.memory.poll w.scope

/-- Tells listeners of changes, unless there are none. -/
def publish (w : Watcher) (now : Nat) (changes : Changes) : Watcher :=
  if changes.isEmpty then w
  else match w.bus.publish Bus.deepest (now, changes) with
    | some (bus, _) => { w with bus := bus }
    | none => w

/-- Ends a poll; the answer is what changed, if anything did. -/
def conclude (w : Watcher) (now : Nat) :
    Except Failure (Memory × Changes) → Watcher × Except Failure (Option Changes)
  | .error f => (w, .error f)
  | .ok (memory, changes) =>
    ({ w with memory := memory }.publish now changes,
      .ok (if changes.isEmpty then none else some changes))

/-- What a developer sees of a watcher. -/
def summary (w : Watcher) : String :=
  match w.memory with
  | .records _ => RecordWatch.summary w.scope w.bus.summary
  | .bundles config _ => BundleWatch.summary w.scope config

end Watcher
end CertWatch
