import CertWatch.Proofs.Bus.Moments
import CertWatch.Proofs.Table

/-!
# Who is registered

Identities are given out one after the other and never again, and the listeners of a bus are its
registrations, in their order, less those that were ended.
-/

namespace CertWatch.Bus
set_option autoImplicit false

variable {ε : Type}

/-- The listener of a stream. -/
def feed (s : Nat) : Listener ε := fun event => [.enqueue s event]

/-- The registration that something is. -/
def Event.registration? : Event ε → Option (Nat × Listener ε)
  | .registered id l => some (id, l)
  | .subscribed s => some (s, feed s)
  | _ => none

/-- The registrations there ever were, the latest last. -/
def registrations (history : List (Event ε)) : List (Nat × Listener ε) :=
  history.filterMap Event.registration?

/-- Whether something ends a registration: its subscription is ended, or its stream is dropped. -/
def Event.ends (id : Nat) : Event ε → Bool
  | .disposed id' => id' = id
  | .dropped s => s = id
  | _ => false

/-- Whether a registration was ended. -/
def ended (history : List (Event ε)) (id : Nat) : Bool := history.any (Event.ends id)

/-- The registrations that were not ended. -/
def current (history : List (Event ε)) : List (Nat × Listener ε) :=
  (registrations history).filter fun l => !ended history l.1

section History

variable {history more : List (Event ε)} {id : Nat}

theorem registrations_append : registrations (history ++ more) =
    registrations history ++ registrations more := List.filterMap_append

theorem registrations_snoc {e : Event ε} {r : Nat × Listener ε} (is : e.registration? = some r) :
    registrations (history ++ [e]) = registrations history ++ [r] := by
  rw [registrations_append, registrations, registrations, List.filterMap_cons_some is,
    List.filterMap_nil]

theorem registrations_snoc_of_none {e : Event ε} (is : e.registration? = none) :
    registrations (history ++ [e]) = registrations history := by
  rw [registrations_append, registrations, registrations, List.filterMap_cons_none is,
    List.filterMap_nil, List.append_nil]

theorem ended_append : ended (history ++ more) id = (ended history id || ended more id) :=
  List.any_append

theorem mem_registrations_of_registered {l : Listener ε} (h : .registered id l ∈ history) :
    (id, l) ∈ registrations history := List.mem_filterMap.2 ⟨_, h, rfl⟩

theorem mem_registrations_of_subscribed (h : .subscribed id ∈ history) :
    (id, feed id) ∈ registrations history := List.mem_filterMap.2 ⟨_, h, rfl⟩

/-- A subscription that was known is known ever after. -/
theorem known_append (h : ∃ l, .registered id l ∈ history) :
    ∃ l, .registered id l ∈ history ++ more := by
  obtain ⟨l, registered⟩ := h
  exact ⟨l, List.mem_append_left _ registered⟩

/-- A registration is that of a subscription or that of a stream. -/
theorem of_mem_registrations {l : Listener ε} (h : (id, l) ∈ registrations history) :
    .registered id l ∈ history ∨ .subscribed id ∈ history ∧ l = feed id := by
  obtain ⟨e, among, is⟩ := List.mem_filterMap.1 h
  cases e with
  | registered id' l' =>
    cases is
    exact .inl among
  | subscribed s =>
    cases is
    exact .inr ⟨among, rfl⟩
  | _ => cases is

theorem ended_iff :
    ended history id = true ↔ .disposed id ∈ history ∨ .dropped id ∈ history := by
  rw [ended, List.any_eq_true]
  constructor
  · rintro ⟨e, among, ends⟩
    cases e with
    | disposed id' =>
      obtain rfl : id' = id := by simpa [Event.ends] using ends
      exact .inl among
    | dropped s =>
      obtain rfl : s = id := by simpa [Event.ends] using ends
      exact .inr among
    | _ => cases ends
  · rintro (among | among)
    · exact ⟨_, among, by simp [Event.ends]⟩
    · exact ⟨_, among, by simp [Event.ends]⟩

/-- Whether something is neither a registration nor the end of one. -/
def Event.isQuiet : Event ε → Bool
  | .registered _ _ => false
  | .disposed _ => false
  | .subscribed _ => false
  | .dropped _ => false
  | _ => true

variable (quiet : ∀ e ∈ more, e.isQuiet = true)
include quiet

theorem registrations_append_of_quiet : registrations (history ++ more) = registrations history := by
  have none : registrations more = [] := by
    rw [registrations, List.filterMap_eq_nil_iff]
    intro e among
    have := quiet e among
    cases e <;> first | rfl | cases this
  rw [registrations_append, none, List.append_nil]

theorem ended_append_of_quiet (id : Nat) : ended (history ++ more) id = ended history id := by
  have none : ended more id = false := by
    rw [ended, List.any_eq_false]
    intro e among
    have := quiet e among
    cases e <;> first | exact Bool.false_ne_true | cases this
  rw [ended_append, none, Bool.or_false]

theorem current_append_of_quiet : current (history ++ more) = current history := by
  rw [current, registrations_append_of_quiet quiet]
  simp only [ended_append_of_quiet quiet, current]

theorem mem_append_of_quiet {e : Event ε} (loud : e.isQuiet = false) :
    e ∈ history ++ more ↔ e ∈ history := by
  rw [List.mem_append]
  constructor
  · rintro (among | among)
    · exact among
    · rw [quiet e among] at loud
      cases loud
  · exact .inl

end History

/-! ## What ending a subscription does to a bus -/

section Bus

variable (b : Bus ε) (id : Nat)

theorem dispose_of_mem (h : id ∈ b.disposed) : b.dispose id = b := by
  rw [dispose, if_pos h]

theorem mem_disposed_dispose {id' : Nat} :
    id' ∈ (b.dispose id).disposed ↔ id' = id ∨ id' ∈ b.disposed := by
  rw [dispose]
  split
  · rename_i already
    constructor
    · exact .inr
    · rintro (rfl | among)
      · exact already
      · exact among
  · exact List.mem_cons

/-- Nothing is removed but a listener of that identity. -/
theorem listeners_dispose (h : ∀ l ∈ b.listeners, l.1 ∉ b.disposed) :
    (b.dispose id).listeners = b.listeners.filter fun l => l.1 ≠ id := by
  rw [dispose]
  split
  · rename_i already
    symm
    rw [List.filter_eq_self]
    intro l among
    have : l.1 ≠ id := fun same => h l among (same ▸ already)
    simpa using this
  · rfl

end Bus

namespace Chronicle

variable {c c' : Chronicle ε}

/-! ## The invariant -/

/-- The bus is as its history says. -/
structure Sound (c : Chronicle ε) : Prop where
  numbered : (registrations c.history).map Prod.fst = List.range c.bus.nextId
  listeners : c.bus.listeners = if c.bus.alive then current c.history else []
  disposed : ∀ id, id ∈ c.bus.disposed ↔ ended c.history id = true
  closed : c.bus.alive = false ↔ .closed ∈ c.history
  /-- Only subscriptions are ended, and only streams are dropped. -/
  ofSubscription : ∀ id, .disposed id ∈ c.history → ∃ l, .registered id l ∈ c.history
  ofStream : ∀ s, .dropped s ∈ c.history → .subscribed s ∈ c.history
  /-- No stream has the identity of a subscription. -/
  apart : ∀ id l, .registered id l ∈ c.history → .subscribed id ∉ c.history
  held : ∀ slot id, c.bus.slots.get? slot = some id → ∃ l, .registered id l ∈ c.history

theorem sound_new : Sound ({} : Chronicle ε) where
  numbered := rfl
  listeners := rfl
  disposed id := by simp [ended]
  closed := by simp
  ofSubscription := by simp
  ofStream := by simp
  apart := by simp
  held slot id holds := by cases holds

namespace Sound

variable (h : Sound c)
include h

theorem lt_of_mem_registrations {r : Nat × Listener ε} (among : r ∈ registrations c.history) :
    r.1 < c.bus.nextId := by
  have : r.1 ∈ (registrations c.history).map Prod.fst := List.mem_map_of_mem among
  rwa [h.numbered, List.mem_range] at this

theorem lt_of_registered {id : Nat} {l : Listener ε} (registered : .registered id l ∈ c.history) :
    id < c.bus.nextId := h.lt_of_mem_registrations (mem_registrations_of_registered registered)

theorem lt_of_subscribed {s : Nat} (subscribed : .subscribed s ∈ c.history) : s < c.bus.nextId :=
  h.lt_of_mem_registrations (mem_registrations_of_subscribed subscribed)

theorem lt_of_ended {id : Nat} (ends : ended c.history id = true) : id < c.bus.nextId := by
  rcases ended_iff.1 ends with among | among
  · obtain ⟨l, registered⟩ := h.ofSubscription id among
    exact h.lt_of_registered registered
  · exact h.lt_of_subscribed (h.ofStream id among)

theorem not_disposed : ∀ l ∈ c.bus.listeners, l.1 ∉ c.bus.disposed := by
  intro l among ends
  rw [h.listeners] at among
  split at among
  · have kept := (List.mem_filter.1 among).2
    rw [(h.disposed l.1).1 ends] at kept
    cases kept
  · cases among

/-- Something happens that is neither a registration nor the end of one. -/
theorem quiet {b : Bus ε} {more : List (Event ε)} (quiet : ∀ e ∈ more, e.isQuiet = true)
    (nextId : b.nextId = c.bus.nextId) (disposed : b.disposed = c.bus.disposed)
    (listeners : b.listeners = if b.alive then current c.history else [])
    (closed : b.alive = false ↔ .closed ∈ c.history ++ more)
    (held : ∀ slot id, b.slots.get? slot = some id → ∃ l, .registered id l ∈ c.history) :
    Sound ⟨b, c.history ++ more⟩ := by
  have still {e : Event ε} (loud : e.isQuiet = false) : e ∈ c.history ++ more ↔ e ∈ c.history :=
    mem_append_of_quiet quiet loud
  constructor
  · rw [registrations_append_of_quiet quiet, h.numbered, nextId]
  · rw [current_append_of_quiet quiet]
    exact listeners
  · intro id
    rw [ended_append_of_quiet quiet, disposed]
    exact h.disposed id
  · exact closed
  · intro id among
    exact known_append (h.ofSubscription id ((still rfl).1 among))
  · intro s among
    exact List.mem_append_left _ (h.ofStream s ((still rfl).1 among))
  · intro id l registered
    rw [still rfl] at registered ⊢
    exact h.apart id l registered
  · intro slot id holds
    exact known_append (held slot id holds)

/-- Something is done to the names, the buffers, the trace or the log. -/
theorem aside {b : Bus ε} {history more : List (Event ε)} (alike : Alike c.bus b)
    (is : history = c.history ++ more) (quiet : ∀ e ∈ more, e.isQuiet = true) (opened : .closed ∉ more)
    (held : ∀ slot id, b.slots.get? slot = some id → ∃ l, .registered id l ∈ c.history) :
    Sound ⟨b, history⟩ := by
  subst is
  refine h.quiet quiet alike.nextId alike.disposed ?_ ?_ held
  · rw [alike.listeners, alike.alive]
    exact h.listeners
  · rw [List.mem_append, or_iff_left opened, alike.alive]
    exact h.closed

/-- The same without an event. -/
theorem silent {b : Bus ε} (alike : Alike c.bus b)
    (held : ∀ slot id, b.slots.get? slot = some id → ∃ l, .registered id l ∈ c.history) :
    Sound ⟨b, c.history⟩ :=
  h.aside alike (List.append_nil _).symm (List.forall_mem_nil _) List.not_mem_nil held

/-- A registration gets the next identity, and comes behind the others. -/
theorem registered {b : Bus ε} {e : Event ε} {l : Listener ε}
    (registration : e = .registered c.bus.nextId l ∨
      e = .subscribed c.bus.nextId ∧ l = feed c.bus.nextId)
    (alive : c.bus.alive = true)
    (same : b = { c.bus with
      nextId := c.bus.nextId + 1, listeners := c.bus.listeners ++ [(c.bus.nextId, l)],
      slots := b.slots, streams := b.streams, buffers := b.buffers })
    (held : ∀ slot id, b.slots.get? slot = some id → ∃ l, .registered id l ∈ c.history ++ [e]) :
    Sound ⟨b, c.history ++ [e]⟩ := by
  have is : e.registration? = some (c.bus.nextId, l) := by
    rcases registration with rfl | ⟨rfl, rfl⟩ <;> rfl
  have all : registrations (c.history ++ [e]) = registrations c.history ++ [(c.bus.nextId, l)] :=
    registrations_snoc is
  have ends (id : Nat) : ended (c.history ++ [e]) id = ended c.history id := by
    rw [ended_append]
    rcases registration with rfl | ⟨rfl, -⟩ <;> exact Bool.or_false _
  have fresh : ended c.history c.bus.nextId = false :=
    Bool.eq_false_iff.2 fun ends => Nat.lt_irrefl _ (h.lt_of_ended ends)
  have still {e' : Event ε} (not : e'.registration? = none) :
      e' ∈ c.history ++ [e] ↔ e' ∈ c.history := by
    have : e' ≠ e := by
      rintro rfl
      rw [is] at not
      cases not
    simp [this]
  constructor
  · rw [all, List.map_append, h.numbered, same, List.range_succ]
    rfl
  · have kept : (fun l : Nat × Listener ε => !ended (c.history ++ [e]) l.1) =
        fun l => !ended c.history l.1 := funext fun l => by rw [ends]
    rw [current, all, kept, List.filter_append, same, h.listeners, alive]
    simp [current, fresh]
  · intro id
    rw [ends, same]
    exact h.disposed id
  · rw [still rfl, same]
    exact h.closed
  · intro id among
    exact known_append (h.ofSubscription id ((still rfl).1 among))
  · intro s among
    exact List.mem_append_left _ (h.ofStream s ((still rfl).1 among))
  · intro id l' registered subscribed
    rcases List.mem_append.1 registered with old | new
    · rcases List.mem_append.1 subscribed with old' | new'
      · exact h.apart id l' old old'
      · obtain rfl := List.mem_singleton.1 new'
        obtain ⟨same, -⟩ : id = c.bus.nextId ∧ _ := by simpa using registration
        exact Nat.ne_of_lt (h.lt_of_registered old) same
    · obtain rfl := List.mem_singleton.1 new
      obtain ⟨same, -⟩ : id = c.bus.nextId ∧ _ := by simpa using registration
      have old : .subscribed id ∈ c.history := by simpa using subscribed
      exact Nat.ne_of_lt (h.lt_of_subscribed old) same
  · exact held

/-- The end of a registration takes no other away. -/
theorem ends {b : Bus ε} {e : Event ε} {id : Nat}
    (ends : (e = .disposed id ∧ ∃ l, .registered id l ∈ c.history) ∨
      (e = .dropped id ∧ .subscribed id ∈ c.history))
    (same : b = { c.bus.dispose id with buffers := b.buffers }) : Sound ⟨b, c.history ++ [e]⟩ := by
  have all : registrations (c.history ++ [e]) = registrations c.history :=
    registrations_snoc_of_none (by rcases ends with ⟨rfl, -⟩ | ⟨rfl, -⟩ <;> rfl)
  have ended' (id' : Nat) : ended (c.history ++ [e]) id' = (ended c.history id' || id' = id) := by
    rw [ended_append]
    rcases ends with ⟨rfl, -⟩ | ⟨rfl, -⟩ <;> simp [ended, Event.ends, eq_comm]
  have still {e' : Event ε} (not : ∀ id', e'.ends id' = false) :
      e' ∈ c.history ++ [e] ↔ e' ∈ c.history := by
    have : e' ≠ e := by
      rintro rfl
      have ends : e'.ends id = true := by rcases ends with ⟨rfl, -⟩ | ⟨rfl, -⟩ <;> simp [Event.ends]
      rw [not] at ends
      cases ends
    simp [this]
  rw [dispose_eq] at same
  constructor
  · rw [all, same]
    exact h.numbered
  · rw [same, current, all]
    show (c.bus.dispose id).listeners = if c.bus.alive then _ else _
    rw [listeners_dispose _ _ h.not_disposed, h.listeners]
    split
    · rw [current, List.filter_filter]
      apply List.filter_congr
      intro l among
      simp [ended', Bool.and_comm]
    · rfl
  · intro id'
    rw [same, ended', Bool.or_eq_true, decide_eq_true_iff, ← h.disposed, or_comm]
    exact mem_disposed_dispose _ _
  · rw [still fun _ => rfl, same]
    exact h.closed
  · intro id' among
    rcases List.mem_append.1 among with old | new
    · exact known_append (h.ofSubscription id' old)
    · obtain rfl := List.mem_singleton.1 new
      obtain ⟨rfl, registered⟩ : id' = id ∧ _ := by simpa using ends
      exact known_append registered
  · intro s among
    rcases List.mem_append.1 among with old | new
    · exact List.mem_append_left _ (h.ofStream s old)
    · obtain rfl := List.mem_singleton.1 new
      obtain ⟨rfl, subscribed⟩ : s = id ∧ _ := by simpa using ends
      exact List.mem_append_left _ subscribed
  · intro id' l registered
    rw [still fun _ => rfl] at registered ⊢
    exact h.apart id' l registered
  · intro slot id' holds
    rw [same] at holds
    exact known_append (h.held slot id' holds)

end Sound

/-- Who was once registered has been registered ever after. -/
theorem Later.registrations (later : Later c c') {r : Nat × Listener ε}
    (among : r ∈ Bus.registrations c.history) : r ∈ Bus.registrations c'.history := by
  obtain ⟨more, history⟩ := later.history
  rw [history, registrations_append]
  exact List.mem_append_left _ among

theorem Act.sound (act : Act c c') (h : Sound c) : Sound c' := by
  cases act with
  | register l alive =>
    exact h.registered (.inl rfl) alive rfl fun slot id holds => known_append (h.held slot id holds)
  | dispose known => exact h.ends (.inl ⟨rfl, _, known⟩) rfl
  | hold slots streams known => exact h.silent ⟨rfl, rfl, rfl, rfl⟩ known
  | subscribe alive =>
    exact h.registered (.inr ⟨rfl, rfl⟩) alive rfl
      fun slot id holds => known_append (h.held slot id holds)
  | dropStream there => exact h.ends (.inr ⟨rfl, there.1⟩) rfl
  | poll there =>
    refine h.aside (alike_poll _ _) rfl (by simp [Event.isQuiet]) (by simp) ?_
    rw [slots_poll]
    exact h.held

theorem Happens.sound (happens : Happens c c') (h : Sound c) : Sound c' := by
  cases happens with
  | act act => exact act.sound h
  | registerAs slot l alive =>
    refine h.registered (.inl rfl) alive rfl ?_
    intro slot' id holds
    change (c.bus.slots.insert slot c.bus.nextId).get? slot' = some id at holds
    rw [Table.get?_insert] at holds
    split at holds
    · cases holds
      exact ⟨l, List.mem_append_right _ (List.mem_singleton_self _)⟩
    · exact known_append (h.held slot' id holds)
  | disposeSlot slot =>
    rw [Chronicle.disposeSlot, Bus.disposeSlot]
    cases holds : c.bus.slots.get? slot with
    | none => simpa using h
    | some id => exact h.ends (.inl ⟨rfl, h.held slot id holds⟩) rfl
  | write trace log => exact h.silent ⟨rfl, rfl, rfl, rfl⟩ h.held
  | enqueue s event => exact h.silent ⟨rfl, rfl, rfl, rfl⟩ h.held
  | begin event =>
    exact h.aside ⟨rfl, rfl, rfl, rfl⟩ rfl (by simp [Event.isQuiet]) (by simp) h.held
  | tell number id event =>
    exact h.aside ⟨rfl, rfl, rfl, rfl⟩ rfl (by simp [Event.isQuiet]) (by simp) h.held
  | close => exact h.quiet (by simp [Event.isQuiet]) rfl rfl rfl (by simp [Bus.drop]) h.held

theorem Later.sound (later : Later c c') (h : Sound c) : Sound c' := by
  induction later with
  | refl => exact h
  | tail _ happens ih => exact happens.sound ih

theorem Moment.sound (h : Moment c) : Sound c := Later.sound h sound_new

namespace Sound

variable (h : Sound c)
include h

/-- A subscription is ended by its own end, and not by the drop of a stream. -/
theorem ended_registered_iff {id : Nat} {l : Listener ε} (registered : .registered id l ∈ c.history) :
    ended c.history id = true ↔ .disposed id ∈ c.history := by
  rw [ended_iff, or_iff_left]
  intro dropped
  exact h.apart id l registered (h.ofStream id dropped)

theorem ended_subscribed_iff {s : Nat} (subscribed : .subscribed s ∈ c.history) :
    ended c.history s = true ↔ .dropped s ∈ c.history := by
  rw [ended_iff, or_iff_right]
  intro disposed
  obtain ⟨l, registered⟩ := h.ofSubscription s disposed
  exact h.apart s l registered subscribed

theorem sublist_listeners : c.bus.listeners.Sublist (registrations c.history) := by
  rw [h.listeners]
  split
  · exact List.filter_sublist
  · exact List.nil_sublist _

/-- No two listeners have one identity. -/
theorem nodup_listeners : (c.bus.listeners.map Prod.fst).Nodup := by
  have all : ((registrations c.history).map Prod.fst).Nodup := h.numbered ▸ List.nodup_range
  exact all.sublist (h.sublist_listeners.map Prod.fst)

/-- While the bus exists, the listener of a stream is registered. -/
theorem listening {s : Nat} (there : c.There s) (alive : c.bus.alive = true) :
    (s, feed s) ∈ c.bus.listeners := by
  rw [h.listeners, if_pos alive, current, List.mem_filter]
  refine ⟨mem_registrations_of_subscribed there.1, ?_⟩
  have kept : ended c.history s = false :=
    Bool.eq_false_iff.2 fun ends => there.2 ((h.ended_subscribed_iff there.1).1 ends)
  rw [kept]
  rfl

theorem isDisposed_iff (id : Nat) : c.bus.isDisposed id = true ↔ ended c.history id = true := by
  rw [isDisposed, decide_eq_true_iff, h.disposed]

/-- Ending a subscription does no more than to take its listener away. -/
theorem dispose_filter (id : Nat) : c.bus.dispose id = { c.bus with
    disposed := (c.bus.dispose id).disposed,
    listeners := c.bus.listeners.filter fun l => l.1 ≠ id } := by
  rw [← listeners_dispose _ _ h.not_disposed]
  exact dispose_eq _ _

end Sound

/-- **The registry.** At every moment in the life of a bus, in the middle of a publish or between two,
whatever those who hold it and its listeners have done: identities were given out in ascending order,
to subscriptions and streams alike; as long as the bus exists, its listeners are the registrations that
were not ended, in their order, and after that it has none; a subscription's registration is ended by
its own disposal only, which is also what the subscription says of itself, and a stream's by its drop
only. Ending a subscription takes its own listener away and changes nothing else, ending it again
changes nothing at all, and when the bus is gone it changes nothing but what the subscription says of
itself. Every publish that comes to an end leads to such a moment again. -/
theorem registry_exact (h : Moment c) :
    ((registrations c.history).map Prod.fst).Pairwise (· < ·) ∧
    (c.bus.alive = false ↔ .closed ∈ c.history) ∧
    c.bus.listeners = (if c.bus.alive then current c.history else []) ∧
    c.bus.listenerCount = (if c.bus.alive then (current c.history).length else 0) ∧
    (∀ id l, .registered id l ∈ c.history →
      (ended c.history id = true ↔ .disposed id ∈ c.history) ∧
      (c.bus.isDisposed id = true ↔ .disposed id ∈ c.history)) ∧
    (∀ s, .subscribed s ∈ c.history → (ended c.history s = true ↔ .dropped s ∈ c.history)) ∧
    (∀ id, c.bus.dispose id = { c.bus with
      disposed := (c.bus.dispose id).disposed,
      listeners := c.bus.listeners.filter fun l => l.1 ≠ id }) ∧
    (∀ id, .disposed id ∈ c.history → c.bus.dispose id = c.bus) ∧
    (c.bus.alive = false → ∀ id,
      c.bus.dispose id = { c.bus with disposed := (c.bus.dispose id).disposed }) ∧
    ∀ event b' n, c.bus.alive = true → c.bus.Publishes event b' n →
      ∃ more, Moment ⟨b', c.history ++ more⟩ := by
  have sound := h.sound
  refine ⟨?_, sound.closed, sound.listeners, ?_, ?_, ?_, sound.dispose_filter, ?_, ?_, ?_⟩
  · rw [sound.numbered]
    exact List.pairwise_lt_range
  · rw [listenerCount, sound.listeners]
    split <;> rfl
  · intro id l registered
    have ends := sound.ended_registered_iff registered
    exact ⟨ends, (sound.isDisposed_iff id).trans ends⟩
  · intro s subscribed
    exact sound.ended_subscribed_iff subscribed
  · intro id disposed
    exact dispose_of_mem _ _ ((sound.disposed id).2 (ended_iff.2 (.inl disposed)))
  · intro gone id
    have none : c.bus.listeners = [] := by rw [sound.listeners, gone]; rfl
    have still : (c.bus.dispose id).listeners = c.bus.listeners := by
      rw [listeners_dispose _ _ sound.not_disposed, none]
      rfl
    exact (dispose_eq _ _).trans (by rw [still])
  · intro event b' n alive ends
    obtain ⟨history, runs⟩ := exists_runs_of_publishes ends
    have later := (runs.later alive).1
    obtain ⟨more, rfl : history = _⟩ := later.history
    exact ⟨more, Relation.ReflTransGen.trans h later⟩

/-- A listener ends its own subscription, registers another listener and publishes in a publish, ends
its subscription again and panics; a stream listens too. -/
def turmoil : Chronicle Nat :=
  (({} : Chronicle Nat).registerAs "a" fun _ => [.dispose "a", .register "c" fun _ => [],
    .publish 1 toString, .dispose "a", .panic none]).subscribe

/-- Afterwards the stream and the other listener are registered, and to end the first subscription once
more would change nothing. -/
theorem registry_exact_of_turmoil : turmoil.Moment ∧ ∃ b' more, turmoil.bus.Publishes 0 b' 1 ∧
    Moment ⟨b', turmoil.history ++ more⟩ ∧ b'.listenerCount = 2 ∧ b'.trace = ["2"] ∧
    (current (turmoil.history ++ more)).map Prod.fst = [1, 2] ∧
    .disposed 0 ∈ turmoil.history ++ more ∧ b'.dispose 0 = b' := by
  have moment : turmoil.Moment :=
    (Relation.ReflTransGen.single (.registerAs "a" _ rfl)).tail (.act (.subscribe rfl))
  have ends : ∃ b', turmoil.bus.Publishes 0 b' 1 ∧ b'.alive = true ∧ b'.isDisposed 0 = true ∧
      b'.listeners.map Prod.fst = [1, 2] ∧ b'.trace = ["2"] :=
    ⟨_, ⟨3, rfl⟩, by rfl, by rfl, by rfl, by rfl⟩
  obtain ⟨b', ends, alive, disposed, ids, trace⟩ := ends
  obtain ⟨-, -, -, -, -, -, -, -, -, onward⟩ := registry_exact moment
  obtain ⟨more, moment'⟩ := onward 0 b' 1 rfl ends
  obtain ⟨-, -, listeners, count, subscriptions, -, -, again, -⟩ := registry_exact moment'
  have registered : .registered 0 _ ∈ turmoil.history ++ more :=
    List.mem_append_left _ (List.mem_cons_self ..)
  have first := (subscriptions 0 _ registered).2.1 disposed
  have kept : (current (turmoil.history ++ more)).map Prod.fst = [1, 2] := by
    rw [← ids, listeners, if_pos alive]
  refine ⟨moment, b', more, ends, moment', ?_, trace, kept, first, again 0 first⟩
  rw [count, if_pos alive, ← List.length_map, kept]
  rfl

end Chronicle
end CertWatch.Bus
