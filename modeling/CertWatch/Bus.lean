import CertWatch.Table

/-!
# The event bus

Listeners are kept in the order of their registration. To publish an event is to call, one after the
other, the listeners that were registered at that instant. A listener may end subscriptions,
register further listeners, publish events of its own or panic; a panic ends that listener's call
only, and is logged. A stream is a listener that puts every event it is told of into a buffer of its
own.
-/

namespace CertWatch
set_option autoImplicit false

/-- What a listener can see of the bus that it is registered with. -/
structure Sight where
  /-- What listeners have written down. -/
  trace : List String
  /-- Whether the subscription that is held under a name was ended, if one is. -/
  disposed : String → Option Bool
  listenerCount : Nat

/-- Something that a listener does. -/
inductive Deed (ε : Type) where
  /-- Writes a line to the trace. -/
  | note (line : String)
  /-- Looks at the bus and goes on by what it sees. The trace is what listeners remember, so one that
  has a state of its own writes it down and looks it up. -/
  | look (next : Sight → List (Deed ε))
  /-- Ends the subscription that is held under a name. -/
  | dispose (slot : String)
  /-- Registers a listener and holds its subscription under a name. -/
  | register (slot : String) (listener : ε → List (Deed ε))
  /-- Publishes an event; the number of calls that returned goes into a line of the trace. -/
  | publish (event : ε) (report : Nat → String)
  /-- Panics, with a message or without one. -/
  | panic (message : Option String)
  /-- Puts an event into the buffer of a stream. -/
  | enqueue (stream : Nat) (event : ε)

/-- A listener: what it does when it is told of an event. -/
abbrev Listener (ε : Type) := ε → List (Deed ε)

/-- A bus with everything that hangs on it. -/
structure Bus (ε : Type) where
  /-- The number of registrations so far, which is the next one's identity. -/
  nextId : Nat := 0
  /-- The registered listeners by identity, in the order of registration. -/
  listeners : List (Nat × Listener ε) := []
  /-- The subscriptions that were ended. -/
  disposed : List Nat := []
  /-- Whether the bus still exists. -/
  alive : Bool := true
  /-- The subscriptions that are held under names. -/
  slots : Table String Nat := .empty
  /-- The streams that are held under names. -/
  streams : Table String Nat := .empty
  /-- The events waiting in the streams. -/
  buffers : List (Nat × List ε) := []
  trace : List String := []
  log : List String := []

namespace Bus

variable {ε : Type}

/-- Registers a listener; the answer is its identity. -/
def register (b : Bus ε) (l : Listener ε) : Bus ε × Nat :=
  ({ b with nextId := b.nextId + 1, listeners := b.listeners ++ [(b.nextId, l)] }, b.nextId)

/-- Ends a subscription: its listener is no longer registered. -/
def dispose (b : Bus ε) (id : Nat) : Bus ε :=
  if id ∈ b.disposed then b
  else { b with
    disposed := id :: b.disposed
    listeners := b.listeners.filter fun l => l.1 ≠ id }

/-- Whether a subscription was ended. -/
def isDisposed (b : Bus ε) (id : Nat) : Bool := id ∈ b.disposed

/-- The number of registered listeners. -/
def listenerCount (b : Bus ε) : Nat := b.listeners.length

/-- Registers a listener and holds its subscription under a name. -/
def registerAs (b : Bus ε) (slot : String) (l : Listener ε) : Bus ε :=
  let (b, id) := b.register l
  { b with slots := b.slots.insert slot id }

/-- Ends the subscription that is held under a name, if any is. -/
def disposeSlot (b : Bus ε) (slot : String) : Bus ε :=
  match b.slots.get? slot with
  | some id => b.dispose id
  | none => b

/-- Puts an event at the end of a buffer. -/
def enqueue (b : Bus ε) (stream : Nat) (event : ε) : Bus ε :=
  { b with buffers := b.buffers.map fun e => if e.1 = stream then (e.1, e.2 ++ [event]) else e }

/-- How a listener's call ended. -/
inductive Outcome where
  | returned
  | panicked (message : String)
  deriving DecidableEq, Repr

/-- What a listener can see. -/
def sight (b : Bus ε) : Sight where
  trace := b.trace
  disposed slot := (b.slots.get? slot).map b.isDisposed
  listenerCount := b.listenerCount

mutual

/-- Carries out deeds in order until one panics; `nested` publishes. It gives nothing if a nested
publish gives nothing. -/
def perform (nested : Bus ε → ε → Option (Bus ε × Nat)) :
    Bus ε → List (Deed ε) → Option (Bus ε × Outcome)
  | b, [] => some (b, .returned)
  | b, deed :: rest =>
    match carryOut nested b deed with
    | some (b, .returned) => perform nested b rest
    | other => other

/-- Carries out a deed. -/
def carryOut (nested : Bus ε → ε → Option (Bus ε × Nat)) :
    Bus ε → Deed ε → Option (Bus ε × Outcome)
  | b, .note line => some ({ b with trace := b.trace ++ [line] }, .returned)
  | b, .look next => perform nested b (next b.sight)
  | b, .dispose slot => some (b.disposeSlot slot, .returned)
  | b, .register slot l => some (b.registerAs slot l, .returned)
  | b, .publish event report =>
    match nested b event with
    | some (b, n) => some ({ b with trace := b.trace ++ [report n] }, .returned)
    | none => none
  | b, .panic message => some (b, .panicked (message.getD "unknown panic"))
  | b, .enqueue stream event => some (b.enqueue stream event, .returned)

end

/-- Tells listeners of an event, in order; the answer counts the calls that returned. -/
def deliver (nested : Bus ε → ε → Option (Bus ε × Nat)) (event : ε) :
    Bus ε → List (Nat × Listener ε) → Nat → Option (Bus ε × Nat)
  | b, [], n => some (b, n)
  | b, (id, l) :: rest, n =>
    match perform nested b (l event) with
    | some (b, .returned) => deliver nested event b rest (n + 1)
    | some (b, .panicked message) =>
      deliver nested event
        { b with log := b.log ++ [s!"ERROR Change listener {id} panicked: {message}"] } rest n
    | none => none

/-- How deep publishing may nest. -/
def deepest : Nat := 1000000

theorem deepest_pos : 0 < deepest := by decide

/-- Publishes an event; the answer counts the calls that returned. The fuel bounds how deep
publishing nests, and nothing is given if it nests deeper. -/
def publish : Nat → Bus ε → ε → Option (Bus ε × Nat)
  | 0, _, _ => none
  | depth + 1, b, event => deliver (publish depth) event b b.listeners 0

/-- Registers a stream; the answer is its identity. -/
def subscribe (b : Bus ε) : Bus ε × Nat :=
  let (b, id) := b.register fun event => [.enqueue b.nextId event]
  ({ b with buffers := b.buffers ++ [(id, [])] }, id)

/-- Drops a stream: its subscription ends and its buffer is gone. -/
def dropStream (b : Bus ε) (id : Nat) : Bus ε :=
  let b := b.dispose id
  { b with buffers := b.buffers.filter fun e => e.1 ≠ id }

/-- What a stream answers when it is asked for an event. -/
inductive Polled (ε : Type) where
  | event (event : ε)
  | pending
  | finished
  deriving DecidableEq, Repr

/-- Asks a stream for an event: the first in its buffer; without one, more may come while the bus
exists. -/
def poll (b : Bus ε) (id : Nat) : Bus ε × Polled ε :=
  match (b.buffers.find? fun e => e.1 = id).map Prod.snd with
  | some (event :: rest) =>
    ({ b with buffers := b.buffers.map fun e => if e.1 = id then (id, rest) else e }, .event event)
  | _ => (b, if b.alive then .pending else .finished)

/-- Drops the bus: no listener is registered any more, and what is buffered stays. -/
def drop (b : Bus ε) : Bus ε := { b with alive := false, listeners := [] }

/-- Registers a stream under a name; a stream held under that name is dropped afterwards. -/
def subscribeAs (b : Bus ε) (name : String) : Bus ε :=
  let earlier := b.streams.get? name
  let (b, id) := b.subscribe
  let b := { b with streams := b.streams.insert name id }
  match earlier with
  | some old => b.dropStream old
  | none => b

/-- Drops the stream that is held under a name, if any is. -/
def dropStreamAs (b : Bus ε) (name : String) : Bus ε :=
  match b.streams.get? name with
  | some id => { b.dropStream id with streams := b.streams.erase name }
  | none => b

/-- What a developer sees of the bus. -/
def summary (b : Bus ε) : String := s!"ChangeEventBus \x7b listeners: {b.listenerCount} \x7d"

/-- What a developer sees of a subscription. -/
def subscriptionSummary (b : Bus ε) (id : Nat) : String :=
  s!"Subscription \x7b disposed: {b.isDisposed id} \x7d"

end Bus
end CertWatch
