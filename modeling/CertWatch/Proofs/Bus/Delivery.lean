import CertWatch.Proofs.Bus.Performing
import CertWatch.Proofs.Bus.Registry

/-!
# Who is told of an event

A publish is taken apart into the calls of listeners that it makes, each with the bus as it was when
the listener was called and as it was when the call ended. The listeners are those that were registered
when the publish began, whatever its calls do to the bus. A nested publish is a publish as any other,
of a bus that can be reached, so the same holds of it.
-/

namespace CertWatch.Bus
set_option autoImplicit false

variable {ε : Type} {b b' : Bus ε} {event : ε} {n : Nat}

/-- A call of a listener, from the bus as it was to the bus as the listener left it. -/
structure Call (ε : Type) where
  id : Nat
  listener : Listener ε
  before : Bus ε
  after : Bus ε
  outcome : Outcome

namespace Call

/-- The bus after a call: as the listener left it, and with one more line in the log if it
panicked. -/
def settled (c : Call ε) : Bus ε :=
  match c.outcome with
  | .returned => c.after
  | .panicked m =>
    { c.after with log := c.after.log ++ [s!"ERROR Change listener {c.id} panicked: {m}"] }

/-- Every call begins where the one before it has ended. -/
inductive Linked : Bus ε → List (Call ε) → Bus ε → Prop where
  | nil (b : Bus ε) : Linked b [] b
  | cons (c : Call ε) {rest : List (Call ε)} {b' : Bus ε} (more : Linked c.settled rest b') :
      Linked c.before (c :: rest) b'

end Call

/-- Listeners are called with an event, one after the other. -/
structure Tells (b : Bus ε) (event : ε) (ls : List (Nat × Listener ε)) (calls : List (Call ε))
    (b' : Bus ε) : Prop where
  called : calls.map (fun c => (c.id, c.listener)) = ls
  performed : ∀ c ∈ calls, c.before.Performs (c.listener event) c.after c.outcome
  linked : Call.Linked b calls b'

theorem tells_nil (b : Bus ε) (event : ε) : b.Tells event [] [] b := ⟨rfl, nofun, .nil b⟩

theorem Tells.cons {c : Call ε} {ls : List (Nat × Listener ε)} {calls : List (Call ε)}
    (performed : c.before.Performs (c.listener event) c.after c.outcome)
    (h : c.settled.Tells event ls calls b') :
    c.before.Tells event ((c.id, c.listener) :: ls) (c :: calls) b' where
  called := by rw [List.map_cons, h.called]
  performed := List.forall_mem_cons.2 ⟨performed, h.performed⟩
  linked := .cons c h.linked

/-- The number of calls that returned. -/
def Call.returned (calls : List (Call ε)) : Nat := calls.countP fun c => c.outcome = .returned

theorem tells_of_deliver {depth k : Nat} (ls : List (Nat × Listener ε))
    (ends : deliver (publish depth) event b ls k = some (b', n)) :
    ∃ calls, b.Tells event ls calls b' ∧ n = k + Call.returned calls := by
  induction ls generalizing b k with
  | nil =>
    rw [deliver] at ends
    cases ends
    exact ⟨[], tells_nil _ event, rfl⟩
  | cons l rest ih =>
    rw [deliver] at ends
    rcases performed : perform (publish depth) b (l.2 event) with _ | ⟨b₁, o⟩
    · simp [performed] at ends
    · rw [performed] at ends
      -- the rest is delivered from where this call has settled
      have goesOn : deliver (publish depth) event (Call.mk l.1 l.2 b b₁ o).settled rest
          (k + Call.returned [Call.mk l.1 l.2 b b₁ o]) = some (b', n) := by
        cases o with
        | returned => exact ends
        | panicked m => exact ends
      obtain ⟨calls, tells, rfl⟩ := ih goesOn
      refine ⟨⟨l.1, l.2, b, b₁, o⟩ :: calls, .cons ⟨depth, performed⟩ tells, ?_⟩
      rw [Nat.add_assoc, Call.returned, Call.returned, ← List.countP_append]
      rfl

theorem deliver_of_tells {ls : List (Nat × Listener ε)} {calls : List (Call ε)}
    (h : b.Tells event ls calls b') (k : Nat) :
    ∃ depth, deliver (publish depth) event b ls k = some (b', k + Call.returned calls) := by
  obtain ⟨rfl, performed, linked⟩ := h
  induction linked generalizing k with
  | nil b => exact ⟨0, rfl⟩
  | @cons c rest b' more ih =>
    obtain ⟨⟨depth, first⟩, performed⟩ := List.forall_mem_cons.1 performed
    obtain ⟨depth', ends⟩ := ih (k + Call.returned [c]) performed
    refine ⟨max depth depth', ?_⟩
    have first := perform_of_extends (publish_extends (Nat.le_max_left depth depth')) _ _ _ first
    have ends := deliver_of_extends (publish_extends (Nat.le_max_right depth depth')) _ ends
    rw [Nat.add_assoc, Call.returned, Call.returned, ← List.countP_append] at ends
    rw [List.map_cons, deliver, first]
    obtain ⟨id, listener, before, after, o⟩ := c
    cases o with
    | returned => exact ends
    | panicked m => exact ends

/-- A publish is the calls of the listeners that are registered. -/
theorem publishes_iff : b.Publishes event b' n ↔
    ∃ calls, b.Tells event b.listeners calls b' ∧ n = Call.returned calls := by
  constructor
  · rintro ⟨depth, ends⟩
    cases depth with
    | zero => cases ends
    | succ depth => simpa using tells_of_deliver b.listeners ends
  · rintro ⟨calls, tells, rfl⟩
    obtain ⟨depth, ends⟩ := deliver_of_tells tells 0
    exact ⟨depth + 1, by rw [publish, ends, Nat.zero_add]⟩

theorem Performs.changes {deeds : List (Deed ε)} {o : Outcome} (h : b.Performs deeds b' o) :
    Changes b b' := by
  obtain ⟨depth, ends⟩ := h
  exact changes_of_perform (changes_of_publish depth) deeds b b' o ends

theorem Call.changes_settled {c : Call ε} (h : Changes c.before c.after) :
    Changes c.before c.settled := by
  rw [settled]
  split
  · exact h
  · exact h.trans (Change.write _ _).changes

/-- Every call is made from a bus that the one before it has come to. -/
theorem Tells.changes {ls : List (Nat × Listener ε)} {calls : List (Call ε)}
    (h : b.Tells event ls calls b') : (∀ c ∈ calls, Changes b c.before) ∧ Changes b b' := by
  obtain ⟨-, performed, linked⟩ := h
  induction linked with
  | nil b => exact ⟨nofun, .refl b⟩
  | @cons c rest b' more ih =>
    obtain ⟨first, performed⟩ := List.forall_mem_cons.1 performed
    obtain ⟨calls, ends⟩ := ih performed
    have settled := Call.changes_settled first.changes
    refine ⟨List.forall_mem_cons.2 ⟨.refl _, ?_⟩, settled.trans ends⟩
    intro c' among
    exact settled.trans (calls c' among)

/-- **Publishing.** Whatever listeners do: a publish that ends calls exactly the listeners that were
registered when it began, each once with the event and in the order of registration, and its result is
the number of calls that returned; and where all these calls end, so does the publish. A listener that
is registered meanwhile is newer than all that are called. A call ends where its deeds, carried out one
by one, lead: either all are done, or a panic is next; a panic adds its line to the log and changes
nothing else. Calls are made from buses that can be reached, so all of this holds of the publishes that
are made in them. -/
theorem publish_calls (reachable : b.Reachable) (event : ε) :
    (∀ b' n, b.Publishes event b' n ↔
      ∃ calls, b.Tells event b.listeners calls b' ∧ n = Call.returned calls) ∧
    ∀ calls b', b.Tells event b.listeners calls b' →
      (calls.map Call.id).Pairwise (· < ·) ∧
      (∀ c ∈ calls, c.before.Reachable ∧
        ∃ left, ComesTo (c.before, c.listener event) (c.after, left) ∧ c.outcome.Leaves [] left) ∧
      ∀ b'', Changes b b'' → ∀ l ∈ b''.listeners, l ∈ b.listeners ∨ ∀ c ∈ calls, c.id < l.1 := by
  refine ⟨fun b' n => publishes_iff, ?_⟩
  intro calls b' tells
  have ids : calls.map Call.id = b.listeners.map Prod.fst := by
    rw [← tells.called, List.map_map]
    rfl
  refine ⟨ids ▸ reachable.orderly.ascending, ?_, ?_⟩
  · intro c among
    exact ⟨reachable.trans (tells.changes.1 c among), performs_iff.1 (tells.performed c among)⟩
  · intro b'' changes l listed
    rcases changes.later.listeners l listed with old | new
    · exact .inl old
    · refine .inr fun c among => Nat.lt_of_lt_of_le ?_ new
      have registered : (c.id, c.listener) ∈ b.listeners := tells.called ▸ List.mem_map_of_mem among
      exact reachable.orderly.known _ registered

/-- Two listeners: the first ends both subscriptions, registers a third listener and publishes another
event; the second panics. -/
def quarrel : Bus Nat :=
  (({} : Bus Nat).registerAs "a" fun event =>
    [.dispose "a", .dispose "b", .register "c" fun _ => []] ++
      if event = 0 then [.publish 1 toString] else []).registerAs "b" fun _ => [.note "b", .panic none]

/-- Both are called, the first one returns, and the third listener only hears of the other event. -/
theorem publish_calls_of_quarrel : quarrel.Reachable ∧
    ∃ b' calls, quarrel.Tells 0 quarrel.listeners calls b' ∧ calls.map Call.id = [0, 1] ∧
      Call.returned calls = 1 ∧ b'.listeners.map Prod.fst = [2] ∧ b'.trace = ["1", "b"] ∧
      b'.log = ["ERROR Change listener 1 panicked: unknown panic"] := by
  have reachable : quarrel.Reachable := (changes_registerAs _ _ _).trans (changes_registerAs _ _ _)
  have ends : ∃ b', quarrel.Publishes 0 b' 1 ∧ b'.listeners.map Prod.fst = [2] ∧
      b'.trace = ["1", "b"] ∧ b'.log = ["ERROR Change listener 1 panicked: unknown panic"] :=
    ⟨_, ⟨3, rfl⟩, by rfl, by rfl, by rfl⟩
  obtain ⟨b', ends, listeners, trace, log⟩ := ends
  obtain ⟨calls, tells, returned⟩ := ((publish_calls reachable 0).1 b' 1).1 ends
  refine ⟨reachable, b', calls, tells, ?_, returned.symm, listeners, trace, log⟩
  have called := congrArg (List.map Prod.fst) tells.called
  rwa [List.map_map] at called

end CertWatch.Bus
