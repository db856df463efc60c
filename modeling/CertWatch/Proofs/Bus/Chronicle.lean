import Mathlib.Logic.Relation
import CertWatch.Proofs.Bus.Performing

/-!
# What has happened on a bus

A bus does not remember who was ever registered with it, nor what was published. A chronicle does: it is
a bus with all that has happened on it since it was made, in that order. Subscriptions and streams are
acted upon by those who hold them, at any time and also in the middle of a publish, between any two
deeds of a listener; `Runs` says what then becomes of a publish and of the calls in it, and every publish
that comes to an end is such a run (`exists_runs_of_publishes`).
-/

namespace CertWatch.Bus
set_option autoImplicit false

variable {ε : Type}

/-- Something that happens on a bus. -/
inductive Event (ε : Type) where
  /-- A listener is registered and gets an identity. -/
  | registered (id : Nat) (listener : Listener ε)
  /-- A subscription is ended, for the first time or again. -/
  | disposed (id : Nat)
  /-- A stream is registered. -/
  | subscribed (stream : Nat)
  | dropped (stream : Nat)
  /-- A stream is asked for an event. -/
  | polled (stream : Nat) (answer : Polled ε)
  /-- Publishing begins. Its calls of listeners are known by a number. -/
  | published (number : Nat) (event : ε)
  /-- A listener is called. -/
  | told (number id : Nat) (event : ε)
  /-- The last handle of the bus is dropped. -/
  | closed

/-- The publishing that has begun, by its number. -/
def published (history : List (Event ε)) : List (Nat × ε) := history.filterMap fun
  | .published number event => some (number, event)
  | _ => none

/-- A bus with all that has happened on it, the latest last. -/
structure Chronicle (ε : Type) where
  bus : Bus ε := {}
  history : List (Event ε) := []

namespace Chronicle

/-- A listener is registered. -/
def register (c : Chronicle ε) (l : Listener ε) : Chronicle ε :=
  ⟨(c.bus.register l).1, c.history ++ [.registered c.bus.nextId l]⟩

/-- A subscription is ended. -/
def dispose (c : Chronicle ε) (id : Nat) : Chronicle ε :=
  ⟨c.bus.dispose id, c.history ++ [.disposed id]⟩

/-- Subscriptions and streams are held under other names. -/
def hold (c : Chronicle ε) (slots streams : Table String Nat) : Chronicle ε :=
  ⟨{ c.bus with slots, streams }, c.history⟩

/-- A stream is registered. -/
def subscribe (c : Chronicle ε) : Chronicle ε :=
  ⟨c.bus.subscribe.1, c.history ++ [.subscribed c.bus.nextId]⟩

/-- A stream is dropped. -/
def dropStream (c : Chronicle ε) (s : Nat) : Chronicle ε :=
  ⟨c.bus.dropStream s, c.history ++ [.dropped s]⟩

/-- A stream is asked for an event. -/
def poll (c : Chronicle ε) (s : Nat) : Chronicle ε :=
  ⟨(c.bus.poll s).1, c.history ++ [.polled s (c.bus.poll s).2]⟩

/-- The last handle of the bus is dropped. -/
def close (c : Chronicle ε) : Chronicle ε := ⟨c.bus.drop, c.history ++ [.closed]⟩

/-- Something is written down. -/
def write (c : Chronicle ε) (trace log : List String) : Chronicle ε :=
  ⟨{ c.bus with trace, log }, c.history⟩

/-- An event is put into the buffer of a stream. -/
def enqueue (c : Chronicle ε) (s : Nat) (event : ε) : Chronicle ε :=
  ⟨c.bus.enqueue s event, c.history⟩

/-- Publishing begins, with the next number. -/
def begin (c : Chronicle ε) (event : ε) : Chronicle ε :=
  ⟨c.bus, c.history ++ [.published (published c.history).length event]⟩

/-- A listener is called. -/
def tell (c : Chronicle ε) (number id : Nat) (event : ε) : Chronicle ε :=
  ⟨c.bus, c.history ++ [.told number id event]⟩

/-- A listener is registered and its subscription is held under a name. -/
def registerAs (c : Chronicle ε) (slot : String) (l : Listener ε) : Chronicle ε :=
  ⟨c.bus.registerAs slot l, c.history ++ [.registered c.bus.nextId l]⟩

/-- The subscription that is held under a name is ended, if any is. -/
def disposeSlot (c : Chronicle ε) (slot : String) : Chronicle ε :=
  ⟨c.bus.disposeSlot slot, c.history ++ (c.bus.slots.get? slot).toList.map .disposed⟩

/-- A stream was registered and not dropped. -/
def There (c : Chronicle ε) (s : Nat) : Prop := .subscribed s ∈ c.history ∧ .dropped s ∉ c.history

/-- What anybody can do who has a handle of the bus, a subscription or a stream. A subscription may be
dropped without being ended: then it is held under no name, and nobody will end it. -/
inductive Act : Chronicle ε → Chronicle ε → Prop where
  | register {c : Chronicle ε} (l : Listener ε) (alive : c.bus.alive = true) : Act c (c.register l)
  | dispose {c : Chronicle ε} {id : Nat} {l : Listener ε} (known : .registered id l ∈ c.history) :
      Act c (c.dispose id)
  | hold {c : Chronicle ε} (slots streams : Table String Nat)
      (known : ∀ name id, slots.get? name = some id → ∃ l, .registered id l ∈ c.history) :
      Act c (c.hold slots streams)
  | subscribe {c : Chronicle ε} (alive : c.bus.alive = true) : Act c c.subscribe
  | dropStream {c : Chronicle ε} {s : Nat} (there : c.There s) : Act c (c.dropStream s)
  | poll {c : Chronicle ε} {s : Nat} (there : c.There s) : Act c (c.poll s)

/-- What is to be done in a publish, with what it comes to. -/
inductive Task (ε : Type) where
  | perform (deeds : List (Deed ε)) (o : Outcome)
  | carryOut (deed : Deed ε) (o : Outcome)
  | publish (event : ε) (n : Nat)
  | deliver (number : Nat) (event : ε) (ls : List (Nat × Listener ε)) (n : Nat)

/-- Something is done in a publish. Before and after any deed of a listener, others may act. -/
inductive Runs : Chronicle ε → Task ε → Chronicle ε → Prop where
  | nil {c : Chronicle ε} : Runs c (.perform [] .returned) c
  | next {c c₁ c' : Chronicle ε} {deed : Deed ε} {rest : List (Deed ε)} {o : Outcome}
      (first : Runs c (.carryOut deed .returned) c₁) (more : Runs c₁ (.perform rest o) c') :
      Runs c (.perform (deed :: rest) o) c'
  | stop {c c' : Chronicle ε} {deed : Deed ε} {rest : List (Deed ε)} {m : String}
      (first : Runs c (.carryOut deed (.panicked m)) c') :
      Runs c (.perform (deed :: rest) (.panicked m)) c'
  | meanwhile {c c₁ c' : Chronicle ε} {deeds : List (Deed ε)} {o : Outcome} (act : Act c c₁)
      (more : Runs c₁ (.perform deeds o) c') : Runs c (.perform deeds o) c'
  | note {c : Chronicle ε} (line : String) :
      Runs c (.carryOut (.note line) .returned) (c.write (c.bus.trace ++ [line]) c.bus.log)
  | look {c c' : Chronicle ε} {next : Sight → List (Deed ε)} {o : Outcome}
      (ends : Runs c (.perform (next c.bus.sight) o) c') : Runs c (.carryOut (.look next) o) c'
  | dispose {c : Chronicle ε} (slot : String) :
      Runs c (.carryOut (.dispose slot) .returned) (c.disposeSlot slot)
  | register {c : Chronicle ε} (slot : String) (l : Listener ε) :
      Runs c (.carryOut (.register slot l) .returned) (c.registerAs slot l)
  | nested {c c' : Chronicle ε} {event : ε} {n : Nat} (report : Nat → String)
      (ends : Runs c (.publish event n) c') :
      Runs c (.carryOut (.publish event report) .returned)
        (c'.write (c'.bus.trace ++ [report n]) c'.bus.log)
  | panic {c : Chronicle ε} (message : Option String) :
      Runs c (.carryOut (.panic message) (.panicked (message.getD "unknown panic"))) c
  | enqueue {c : Chronicle ε} (s : Nat) (event : ε) :
      Runs c (.carryOut (.enqueue s event) .returned) (c.enqueue s event)
  | publish {c c' : Chronicle ε} {event : ε} {n : Nat}
      (ends : Runs (c.begin event)
        (.deliver (published c.history).length event c.bus.listeners n) c') :
      Runs c (.publish event n) c'
  | done {c : Chronicle ε} {number : Nat} {event : ε} : Runs c (.deliver number event [] 0) c
  | returned {c c₁ c' : Chronicle ε} {number id n : Nat} {event : ε} {l : Listener ε}
      {rest : List (Nat × Listener ε)}
      (called : Runs (c.tell number id event) (.perform (l event) .returned) c₁)
      (more : Runs c₁ (.deliver number event rest n) c') :
      Runs c (.deliver number event ((id, l) :: rest) (n + 1)) c'
  | panicked {c c₁ c' : Chronicle ε} {number id n : Nat} {event : ε} {l : Listener ε}
      {rest : List (Nat × Listener ε)} {m : String}
      (called : Runs (c.tell number id event) (.perform (l event) (.panicked m)) c₁)
      (more : Runs (c₁.write c₁.bus.trace
        (c₁.bus.log ++ [s!"ERROR Change listener {id} panicked: {m}"])) (.deliver number event rest n) c') :
      Runs c (.deliver number event ((id, l) :: rest) n) c'

/-- What can happen between two publishes, or a publish. -/
inductive Step : Chronicle ε → Chronicle ε → Prop where
  | act {c c' : Chronicle ε} (act : Act c c') : Step c c'
  | publish {c c' : Chronicle ε} {event : ε} {n : Nat} (alive : c.bus.alive = true)
      (runs : Runs c (.publish event n) c') : Step c c'
  | close {c : Chronicle ε} (alive : c.bus.alive = true) : Step c c.close

/-- One chronicle goes on where another stands. -/
def Leads : Chronicle ε → Chronicle ε → Prop := Relation.ReflTransGen Step

/-- A chronicle of a new bus, at a moment between publishes. -/
def Reached (c : Chronicle ε) : Prop := Leads {} c

/-! ## Every publish is a run -/

section Nested

variable {nested : Bus ε → ε → Option (Bus ε × Nat)}

/-- Whatever publishing comes to, some run comes to it. -/
def Chronicled (nested : Bus ε → ε → Option (Bus ε × Nat)) : Prop :=
  ∀ (c : Chronicle ε) event b' n, nested c.bus event = some (b', n) →
    ∃ history, Runs c (.publish event n) ⟨b', history⟩

mutual

theorem runs_of_perform (h : Chronicled nested) : ∀ (deeds : List (Deed ε)) (c : Chronicle ε)
    (b' : Bus ε) (o : Outcome), perform nested c.bus deeds = some (b', o) →
      ∃ history, Runs c (.perform deeds o) ⟨b', history⟩
  | [], c, b', o, ends => by
    rw [perform] at ends
    cases ends
    exact ⟨c.history, .nil⟩
  | deed :: rest, c, b', o, ends => by
    rcases perform_cons_iff.1 ends with ⟨b₁, first, more⟩ | ⟨m, first, rfl⟩
    · obtain ⟨history, first⟩ := runs_of_carryOut h deed c b₁ .returned first
      obtain ⟨history', more⟩ := runs_of_perform h rest ⟨b₁, history⟩ b' o more
      exact ⟨history', .next first more⟩
    · obtain ⟨history, first⟩ := runs_of_carryOut h deed c b' (.panicked m) first
      exact ⟨history, .stop first⟩

theorem runs_of_carryOut (h : Chronicled nested) : ∀ (deed : Deed ε) (c : Chronicle ε)
    (b' : Bus ε) (o : Outcome), carryOut nested c.bus deed = some (b', o) →
      ∃ history, Runs c (.carryOut deed o) ⟨b', history⟩
  | .note line, c, b', o, ends => by
    rw [carryOut] at ends
    cases ends
    exact ⟨_, .note line⟩
  | .look next, c, b', o, ends => by
    rw [carryOut] at ends
    obtain ⟨history, runs⟩ := runs_of_perform h (next c.bus.sight) c b' o ends
    exact ⟨history, .look runs⟩
  | .dispose slot, c, b', o, ends => by
    rw [carryOut] at ends
    cases ends
    exact ⟨_, .dispose slot⟩
  | .register slot l, c, b', o, ends => by
    rw [carryOut] at ends
    cases ends
    exact ⟨_, .register slot l⟩
  | .publish event report, c, b', o, ends => by
    rw [carryOut] at ends
    cases published : nested c.bus event with
    | none => simp [published] at ends
    | some r =>
      rw [published] at ends
      cases ends
      obtain ⟨history, runs⟩ := h c event r.1 r.2 published
      exact ⟨_, .nested report runs⟩
  | .panic message, c, b', o, ends => by
    rw [carryOut] at ends
    cases ends
    exact ⟨c.history, .panic message⟩
  | .enqueue s event, c, b', o, ends => by
    rw [carryOut] at ends
    cases ends
    exact ⟨_, .enqueue s event⟩

end

theorem runs_of_deliver (h : Chronicled nested) {number k m : Nat} {event : ε} {b' : Bus ε}
    (ls : List (Nat × Listener ε)) (c : Chronicle ε)
    (ends : deliver nested event c.bus ls k = some (b', m)) :
    ∃ n history, m = k + n ∧ Runs c (.deliver number event ls n) ⟨b', history⟩ := by
  induction ls generalizing c k with
  | nil =>
    rw [deliver] at ends
    cases ends
    exact ⟨0, c.history, rfl, .done⟩
  | cons l rest ih =>
    obtain ⟨id, l⟩ := l
    rw [deliver] at ends
    rcases performed : perform nested c.bus (l event) with _ | ⟨b₁, o⟩
    · simp [performed] at ends
    · obtain ⟨history, called⟩ := runs_of_perform h (l event) (c.tell number id event) b₁ o performed
      rw [performed] at ends
      cases o with
      | returned =>
        obtain ⟨n, history', rfl, more⟩ := ih ⟨b₁, history⟩ ends
        exact ⟨n + 1, history', by omega, .returned called more⟩
      | panicked message =>
        obtain ⟨n, history', rfl, more⟩ := ih (write ⟨b₁, history⟩ b₁.trace _) ends
        exact ⟨n, history', rfl, .panicked called more⟩

end Nested

theorem chronicled_publish (depth : Nat) : Chronicled (publish (ε := ε) depth) := by
  induction depth with
  | zero => intro c event b' n ends; cases ends
  | succ depth ih =>
    intro c event b' n ends
    obtain ⟨n', history, rfl, runs⟩ := runs_of_deliver ih c.bus.listeners (c.begin event) ends
    rw [Nat.zero_add]
    exact ⟨history, .publish runs⟩

/-- A publish that comes to an end is a run, in which nobody else acts. -/
theorem exists_runs_of_publishes {c : Chronicle ε} {event : ε} {b' : Bus ε} {n : Nat}
    (ends : c.bus.Publishes event b' n) : ∃ history, Runs c (.publish event n) ⟨b', history⟩ := by
  obtain ⟨depth, ends⟩ := ends
  exact chronicled_publish depth c event b' n ends

end Chronicle
end CertWatch.Bus
