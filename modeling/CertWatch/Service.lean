import CertWatch.Allocation
import CertWatch.PollLoop
import CertWatch.Watch.Watcher

/-!
# The service

A service checks its settings before anything else, allocates its namespace, and then watches
records and bundles in it with two loops. Shutting it down tells both loops to stop and waits for
them in order; the first that has died is a failure, and the ones behind it are not waited for.
-/

namespace CertWatch
set_option autoImplicit false

namespace Config

/-- The allocator of a service, if all settings are acceptable. -/
def allocator (c : Config) : Except Failure Allocator := do
  c.validate
  Allocator.create c.allocation

/-- The scope of a service and what its watcher of bundles remembers, once its prefix was found. -/
def watched (c : Config) (found : Except Failure String) : Except Failure (Scope × Memory) := do
  let scope : Scope := ⟨← found, ← c.sealing.key⟩
  return (scope, ← Memory.ofBundles c.bundles)

end Config

namespace PollLoop

/-- Whether all of some loops are alive and were not told to stop; there has to be one. -/
def allRunning (loops : List PollLoop) : Bool := !loops.isEmpty && loops.all isRunning

/-- What one who waits for some loops in order is told, once they have ended or one has died. -/
def joined : List PollLoop → Option (Except Failure Unit)
  | [] => some (.ok ())
  | l :: rest =>
    if l.isOver then
      match l.outcome with
      | .error f => some (.error f)
      | .ok () => joined rest
    else none

end PollLoop

/-- What a developer sees of a service. -/
def Config.serviceSummary (scope : Scope) (running : Bool) : String :=
  s!"CertSync \x7b namespace: {Text.quoted scope.name}, running: {running} \x7d"

end CertWatch
