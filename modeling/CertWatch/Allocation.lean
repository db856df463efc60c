import CertWatch.Lease.Acquisition
import CertWatch.Line
import CertWatch.Prefix

/-!
# Allocating a namespace prefix

A fixed prefix is taken as it is, and so is a stored one that can be used. Otherwise the allocation
lease is acquired, the stored prefix is read again, and only then a fresh one is written. The store
overwrites blindly, so it is the lease that keeps two allocations apart: it has to be held before
the write and after it, and a write that the lease may not have covered is a failure and not a
prefix.
-/

namespace CertWatch
set_option autoImplicit false

/-- How far an allocation has come. -/
inductive Stage where
  /-- Reading the stored prefix. -/
  | reading
  /-- Asking for the lease; the attempt began at an instant. -/
  | asking (wanted : Acquisition) (since : Nat)
  /-- Pausing until the next attempt. -/
  | pausing (wanted : Acquisition) (next : Nat)
  /-- Reading the stored prefix again, under the lease. -/
  | rereading
  /-- Writing a fresh prefix, under the lease. -/
  | writing (fresh : StoredPrefix)
  /-- Giving the lease up. -/
  | releasing (outcome : Except Failure String)
  | finished (outcome : Except Failure String)

namespace Stage

/-- Where an allocation begins. -/
def start (c : NamespaceConfig) : Stage :=
  match c.staticPrefix with
  | some fixed => .finished (.ok fixed)
  | none => .reading

/-- The lease that an allocation by an owner wants from now on. As in `Acquisition.start`, the deadline
may lie beyond what a machine's clock can hold. -/
def wanted (c : NamespaceConfig) (owner : String) (now : Nat) : Acquisition where
  resource := c.lockResource
  owner
  length := c.leaseSeconds * Clock.second
  retry := c.retryDelayMs * Clock.millisecond
  deadline := c.acquireTimeoutSeconds.map fun s => now + s * Clock.second

/-- After the first reading. -/
def afterRead (c : NamespaceConfig) (owner : String) (now : Nat) :
    Except Failure (Option Bytes) → Stage
  | .error f => .finished (.error f)
  | .ok stored =>
    match StoredPrefix.usableIn? c.refreshBefore stored with
    | some p => .finished (.ok p)
    | none => .asking (wanted c owner now) now

/-- After an attempt to acquire the lease. -/
def afterAttempt (a : Acquisition) (now : Nat) (answer : Except Failure Bool) : Stage :=
  match a.judge now answer with
  | .granted => .rereading
  | .pause next => .pausing a next
  | .failed f => .finished (.error f)

/-- After the second reading; `held` says whether the guard holds the lease now, and `fresh` is the
prefix to write. -/
def afterReread (c : NamespaceConfig) (held : Bool) (fresh : StoredPrefix) :
    Except Failure (Option Bytes) → Stage
  | .error f => .releasing (.error f)
  | .ok stored =>
    match StoredPrefix.usableIn? c.refreshBefore stored with
    | some p => .releasing (.ok p)
    | none => if held then .writing fresh else .releasing (.error (Guard.lossOf c.lockResource))

/-- After the write. -/
def afterWrite (c : NamespaceConfig) (held : Bool) (fresh : StoredPrefix) :
    Except Failure Unit → Stage
  | .error f => .releasing (.error f)
  | .ok () => .releasing (if held then .ok fresh.value else .error (Guard.lossOf c.lockResource))

/-- After the lease was given up: a failure to do so changes nothing but the log. -/
def afterRelease (outcome : Except Failure String) (answer : Except Failure Unit) :
    Stage × List Notice :=
  (.finished outcome, match answer with
    | .error f => [.warning ("Failed to release namespace lock: " ++ f.message)]
    | .ok () => [])

/-- What an allocation waits for. -/
inductive Want where
  /-- The answer to a call. -/
  | answer (c : Call)
  /-- An instant. -/
  | instant (next : Nat)
  /-- The release of its guard. -/
  | release (outcome : Except Failure String)
  /-- Nothing any more. -/
  | nothing (outcome : Except Failure String)

/-- What an allocation waits for at a stage. -/
def want (c : NamespaceConfig) : Stage → Want
  | .reading => .answer (.get c.prefixKey)
  | .asking a _ => .answer a.attempt
  | .pausing _ next => .instant next
  | .rereading => .answer (.get c.prefixKey)
  | .writing fresh => .answer (.set c.prefixKey fresh.encode)
  | .releasing outcome => .release outcome
  | .finished outcome => .nothing outcome

/-- What an allocation has at hand when an answer arrives. -/
structure Moment where
  now : Nat
  /-- Whether its guard holds the lease. -/
  held : Bool
  /-- The owner under which it asks for a lease from now on. -/
  owner : String
  /-- The prefix that it writes from now on. -/
  fresh : StoredPrefix

/-- The stage after the answer to a call that the allocation waits for. -/
def answered (c : NamespaceConfig) (m : Moment) :
    Stage → (asked : Call) → Except Failure asked.Answer → Stage
  | .reading, .get _, r => afterRead c m.owner m.now r
  | .asking a _, .tryAcquire .., r => afterAttempt a m.now r
  | .rereading, .get _, r => afterReread c m.held m.fresh r
  | .writing fresh, .set .., r => afterWrite c m.held fresh r
  | s, _, _ => s

/-- The stage after an instant that the allocation waits for. -/
def resumed (now : Nat) : Stage → Stage
  | .pausing a _ => .asking a now
  | s => s

/-- The guard that an answer gave to the allocation, by the stages before and after it. -/
def grant? (now : Nat) : Stage → Stage → Option Guard
  | .asking a since, .rereading => some (a.guard since now)
  | _, _ => none

end Stage

/-- A fresh prefix: the host and a token. -/
def NamespaceConfig.freshPrefix (c : NamespaceConfig) (token : String) (created : Timestamp) :
    StoredPrefix :=
  ⟨c.host ++ "-" ++ token, some created⟩

/-- An allocator: it allocates a prefix once, however often it is asked. -/
structure Allocator where
  config : NamespaceConfig
  found : Once String := {}

namespace Allocator

/-- The allocator for settings that are acceptable. -/
def create (c : NamespaceConfig) : Except Failure Allocator :=
  (Config.orFail c.validate).map fun _ => { config := c }

/-- What a developer sees of an allocator. -/
def summary (a : Allocator) : String :=
  s!"KeyNamespaceAllocator \x7b stat_key: {Text.quoted a.config.prefixKey}, " ++
    s!"prefix: {Text.optional (a.found.value.map Text.quoted)} \x7d"

end Allocator

end CertWatch
