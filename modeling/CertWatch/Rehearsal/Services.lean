import CertWatch.Rehearsal.Loops
import CertWatch.Rehearsal.Prefixes
import CertWatch.Rehearsal.Readers

/-!
# Services in a rehearsal

A service is kept under a name, and its two watchers under that name with an ending. A service that
has shut down or was dropped is gone, and its watchers with it; what they have told their listeners
can still be collected.
-/

namespace CertWatch.Act
set_option autoImplicit false

variable {ρ : Type} [Inhabited ρ]

/-- Keeps a service under a name; one that was kept there is dropped. -/
def keepService (name : String) (s : Service) : Act ρ Unit := do
  let earlier ← Flow.get fun w => (w.services.get? name).map Service.loops
  Flow.edit fun w => { w with services := w.services.insert name s }
  orphanAll (earlier.getD [])

/-- Makes a service in a scope. -/
def settleIn (name : String) (config : Config) (scope : Scope) (bundles : Memory) :
    Act ρ Service := do
  let log ← newLog (config.errorIntervalSeconds * Clock.second)
  let records ← keepWatcher (name ++ ".records") scope .ofRecords (.limited log)
  let bundles ← keepWatcher (name ++ ".groups") scope bundles (.limited log)
  return { config, scope, records, bundles, log }

/-- Makes a service and keeps it under a name. -/
def newService (name : String) (config : Config) : Act ρ (Except Failure Service) := do
  match config.allocator with
  | .error f => return .error f
  | .ok a =>
    let found ← obtainPrefix (← keepAllocator a)
    match config.watched found with
    | .error f => return .error f
    | .ok (scope, bundles) =>
      let s ← settleIn name config scope bundles
      keepService name s
      return .ok s

/-- The service under a name. -/
def serviceNamed (name : String) : Act ρ (Option Service) := Flow.get fun w => w.services.get? name

/-- Whether the loops of a service run. -/
def isRunning (s : Service) (w : World) : Bool := PollLoop.allRunning (loopsOf s.loops w)

/-- Starts the loops of a service, unless they run. -/
def startService (name : String) (s : Service) : Act ρ Unit := do
  if ← Flow.get (isRunning s) then return ()
  let records ← startPolling s.records (s.config.records.intervalMs * Clock.millisecond)
  let bundles ← startPolling s.bundles (s.config.bundles.intervalMs * Clock.millisecond)
  orphanAll s.loops
  let started := { s with loops := [records, bundles] }
  Flow.edit fun w => { w with services := w.services.insert name started }

/-- Takes a service away from its name, and its watchers with it. -/
def takeService (name : String) (s : Service) : Act ρ Unit := Flow.edit fun w => { w with
  services := w.services.erase name
  unserved := s.records :: s.bundles :: w.unserved }

/-- Whether the watcher under a name is one of a service that is gone. -/
def isUnserved (name : String) : Act ρ Bool := Flow.get fun w =>
  (w.watcherNames.get? name).any fun id => w.unserved.contains id

/-- Shuts a service down. -/
def shutDown (name : String) (s : Service) : Act ρ (Except Failure Unit) := do
  takeService name s
  join s.loops

/-- Drops a service: nobody has the handles of its loops any more. -/
def dropService (name : String) (s : Service) : Act ρ Unit := do
  takeService name s
  orphanAll s.loops

end CertWatch.Act
