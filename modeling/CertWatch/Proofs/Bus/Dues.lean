import Mathlib.Data.List.TakeWhile
import CertWatch.Proofs.Bus.Buffers
import CertWatch.Proofs.Bus.Membership

/-!
# What is due to a stream

Every publish that begins while a stream exists owes it its event, and pays when it calls the listener
of the stream. In between, an invariant says what is still due (`Kept`): what a stream has yielded, with
what waits in it, is what its listener was told, and what its listener was told, with what is due, is
what was published.
-/

namespace CertWatch.Bus
set_option autoImplicit false

variable {ε : Type}

/-- What the listener of a stream was told, by the number of the publish. -/
def told (s : Nat) (history : List (Event ε)) : List (Nat × ε) := history.filterMap fun
  | .told number id event => if id = s then some (number, event) else none
  | _ => none

/-- The events that a stream has yielded. -/
def yielded (s : Nat) (history : List (Event ε)) : List ε := history.filterMap fun
  | .polled s' (.event event) => if s' = s then some event else none
  | _ => none

/-- Whether something is the registration of a stream. -/
def Event.opens (s : Nat) : Event ε → Bool
  | .subscribed s' => s' = s
  | _ => false

/-- What has happened since a stream was registered. -/
def since (s : Nat) (history : List (Event ε)) : List (Event ε) :=
  history.dropWhile fun e => !e.opens s

/-- Whether something matters to a stream: its registration, an event that it yields, a publish, or a
call of its listener. -/
def Event.concerns (s : Nat) : Event ε → Bool
  | .subscribed s' => s' = s
  | .polled s' (.event _) => s' = s
  | .published _ _ => true
  | .told _ id _ => id = s
  | _ => false

section History

variable {s : Nat} {history more : List (Event ε)}

theorem told_append : told s (history ++ more) = told s history ++ told s more :=
  List.filterMap_append

theorem yielded_append : yielded s (history ++ more) = yielded s history ++ yielded s more :=
  List.filterMap_append

theorem published_append : published (history ++ more) = published history ++ published more :=
  List.filterMap_append

theorem since_append (subscribed : .subscribed s ∈ history) :
    since s (history ++ more) = since s history ++ more := by
  have still : (history.dropWhile fun e => !e.opens s).isEmpty = false := by
    rw [List.isEmpty_eq_false_iff, Ne, List.dropWhile_eq_nil_iff]
    intro none
    simpa [Event.opens] using none _ subscribed
  rw [since, List.dropWhile_append, still, since]
  rfl

/-- Nothing has happened yet since a stream that is just registered was registered. -/
theorem since_subscribed (new : .subscribed s ∉ history) :
    since s (history ++ [.subscribed s]) = [.subscribed s] := by
  have before : ∀ e ∈ history, (!e.opens s) = true := by
    intro e among
    cases e with
    | subscribed s' =>
      have : s' ≠ s := fun same => new (same ▸ among)
      simpa [Event.opens] using this
    | _ => rfl
  rw [since, List.dropWhile_append_of_pos before, List.dropWhile_cons_of_neg]
  simp [Event.opens]

variable (aside : ∀ e ∈ more, e.concerns s = false)
include aside

theorem told_of_aside : told s more = [] := by
  rw [told, List.filterMap_eq_nil_iff]
  intro e among
  have := aside e among
  cases e with
  | told number id event =>
    rw [Event.concerns, decide_eq_false_iff_not] at this
    exact if_neg this
  | _ => rfl

theorem yielded_of_aside : yielded s more = [] := by
  rw [yielded, List.filterMap_eq_nil_iff]
  intro e among
  have := aside e among
  cases e with
  | polled s' answer =>
    cases answer with
    | event event =>
      rw [Event.concerns, decide_eq_false_iff_not] at this
      exact if_neg this
    | _ => rfl
  | _ => rfl

theorem published_of_aside : published more = [] := by
  rw [published, List.filterMap_eq_nil_iff]
  intro e among
  have := aside e among
  cases e with
  | published number event => cases this
  | _ => rfl

theorem not_subscribed_of_aside : .subscribed s ∉ more := by
  intro among
  simpa [Event.concerns] using aside _ among

end History

/-! ## Who puts events into the buffer of a stream -/

/-- Whoever does this does not put anything into the buffer of a stream. -/
inductive Spares (s : Nat) : Deed ε → Prop where
  | note (line : String) : Spares s (.note line)
  | look {next : Sight → List (Deed ε)} (spares : ∀ sight, ∀ d ∈ next sight, Spares s d) :
      Spares s (.look next)
  | dispose (slot : String) : Spares s (.dispose slot)
  | register (slot : String) (l : Listener ε) : Spares s (.register slot l)
  | publish (event : ε) (report : Nat → String) : Spares s (.publish event report)
  | panic (message : Option String) : Spares s (.panic message)
  | enqueue {s' : Nat} (event : ε) (other : s' ≠ s) : Spares s (.enqueue s' event)

/-- What is done puts the events that are owed into the buffer of a stream, and no others. -/
inductive Owes (s : Nat) : List (Deed ε) → List ε → Prop where
  | nothing {deeds : List (Deed ε)} (spares : ∀ d ∈ deeds, Spares s d) : Owes s deeds []
  | feed (event : ε) : Owes s [.enqueue s event] [event]

theorem owes_cons {s : Nat} {deed : Deed ε} {rest : List (Deed ε)} {late : List ε}
    (h : Owes s (deed :: rest) late) : Owes s [deed] late ∧ Owes s rest [] := by
  cases h with
  | nothing spares =>
    obtain ⟨first, more⟩ := List.forall_mem_cons.1 spares
    exact ⟨.nothing (List.forall_mem_singleton.2 first), .nothing more⟩
  | feed event => exact ⟨.feed event, .nothing nofun⟩

/-- What a delivery to these listeners owes to a stream. -/
def duty (s number : Nat) (event : ε) (ls : List (Nat × Listener ε)) : List (Nat × ε) :=
  if s ∈ ls.map Prod.fst then [(number, event)] else []

section Duty

variable {s number : Nat} {event : ε} {l : Listener ε} {rest : List (Nat × Listener ε)}

theorem duty_cons_self : duty s number event ((s, l) :: rest) = [(number, event)] :=
  if_pos (List.mem_cons_self ..)

theorem duty_cons_of_ne {id : Nat} (other : id ≠ s) :
    duty s number event ((id, l) :: rest) = duty s number event rest := by
  have same : s ∈ ((id, l) :: rest).map Prod.fst ↔ s ∈ rest.map Prod.fst := by
    rw [List.map_cons, List.mem_cons, or_iff_right (Ne.symm other)]
  simp only [duty, same]

end Duty

namespace Chronicle

variable {c c' : Chronicle ε} {s : Nat} {late : List ε} {due : List (Nat × ε)}

/-- Nobody but the listener of a stream puts anything into its buffer. -/
def Only (s : Nat) (c : Chronicle ε) : Prop :=
  ∀ id l, .registered id l ∈ c.history → ∀ event, ∀ d ∈ l event, Spares s d

theorem Only.earlier (h : Only s c') (later : Later c c') : Only s c := by
  intro id l registered
  exact h id l (later.mem registered)

/-! ## The invariant -/

/-- What a stream has got and what it is owed: events that its listener was told of but has not yet put
into the buffer, and publishes that will still call its listener. -/
structure Kept (s : Nat) (late : List ε) (due : List (Nat × ε)) (c : Chronicle ε) : Prop where
  fresh : c.bus.nextId ≤ s → late = [] ∧ due = [] ∧ told s c.history = [] ∧
    yielded s c.history = [] ∧ c.bus.buffer? s = none
  buffered : c.There s → ∃ es, c.bus.buffer? s = some es ∧
    yielded s c.history ++ es ++ late = (told s c.history).map Prod.snd
  calls : c.There s → (told s c.history ++ due).Perm (published (since s c.history))

theorem kept_new : Kept s [] [] ({} : Chronicle ε) where
  fresh _ := ⟨rfl, rfl, rfl, rfl, rfl⟩
  buffered there := absurd there.1 List.not_mem_nil
  calls there := absurd there.1 List.not_mem_nil

/-- A stream that was there before something happened is there after it, if it is not dropped. -/
theorem There.earlier {more : List (Event ε)} (history : c'.history = c.history ++ more)
    (there : c'.There s) (subscribed : .subscribed s ∉ more) : c.There s := by
  obtain ⟨registered, kept⟩ := there
  rw [history, List.mem_append] at registered kept
  exact ⟨registered.resolve_right subscribed, fun dropped => kept (.inl dropped)⟩

/-- Something happens that does not concern the stream. -/
theorem Kept.aside (kept : Kept s late due c) {b : Bus ε} {history more : List (Event ε)}
    (is : history = c.history ++ more) (aside : ∀ e ∈ more, e.concerns s = false)
    (nextId : c.bus.nextId ≤ b.nextId) (buffer : b.buffer? s = c.bus.buffer? s) :
    Kept s late due ⟨b, history⟩ := by
  subst is
  have toldSame : told s (c.history ++ more) = told s c.history := by
    rw [told_append, told_of_aside aside, List.append_nil]
  have yieldedSame : yielded s (c.history ++ more) = yielded s c.history := by
    rw [yielded_append, yielded_of_aside aside, List.append_nil]
  have before (there : There ⟨b, c.history ++ more⟩ s) : c.There s :=
    there.earlier rfl (not_subscribed_of_aside aside)
  constructor
  · intro new
    rw [toldSame, yieldedSame, buffer]
    exact kept.fresh (Nat.le_trans nextId new)
  · intro there
    rw [toldSame, yieldedSame, buffer]
    exact kept.buffered (before there)
  · intro there
    rw [toldSame, since_append (before there).1, published_append, published_of_aside aside,
      List.append_nil]
    exact kept.calls (before there)

theorem Kept.silent (kept : Kept s late due c) {b : Bus ε} (nextId : c.bus.nextId ≤ b.nextId)
    (buffer : b.buffer? s = c.bus.buffer? s) : Kept s late due ⟨b, c.history⟩ :=
  kept.aside (List.append_nil _).symm (List.forall_mem_nil _) nextId buffer

/-- What is written down does not concern a stream. -/
theorem Kept.write (kept : Kept s late due c) (trace log : List String) :
    Kept s late due (c.write trace log) :=
  kept.silent (Nat.le_refl _) rfl

/-- To a subscription nothing is owed. -/
theorem kept_of_registered (sound : Sound c) {l : Listener ε} (registered : .registered s l ∈ c.history) :
    Kept s late due c where
  fresh new := absurd (sound.lt_of_registered registered) (Nat.not_lt.2 new)
  buffered there := absurd there.1 (sound.apart s l registered)
  calls there := absurd there.1 (sound.apart s l registered)

/-- Nothing is owed to a stream that is just registered. -/
theorem Kept.subscribe (kept : Kept s late due c) (sound : Sound c) (new : s = c.bus.nextId) :
    Kept s late due c.subscribe := by
  obtain ⟨rfl, rfl, toldNone, yieldedNone, noBuffer⟩ := kept.fresh new.ge
  have toldNone : told s c.subscribe.history = [] := by
    rw [Chronicle.subscribe, told_append, toldNone]
    rfl
  have yieldedNone : yielded s c.subscribe.history = [] := by
    rw [Chronicle.subscribe, yielded_append, yieldedNone]
    rfl
  constructor
  · intro newer
    exact absurd newer (Nat.not_le.2 (new ▸ Nat.lt_succ_self _))
  · intro there
    refine ⟨[], ?_, ?_⟩
    · rw [Chronicle.subscribe, buffer?_subscribe, noBuffer, if_pos new]
      rfl
    · rw [toldNone, yieldedNone]
      rfl
  · intro there
    have unknown : .subscribed s ∉ c.history := fun known =>
      Nat.lt_irrefl _ (new ▸ sound.lt_of_subscribed known)
    rw [toldNone, Chronicle.subscribe, ← new, since_subscribed unknown]
    exact .nil

/-- A stream yields the first event that waits in it, or else nothing. -/
theorem Kept.poll (kept : Kept s late due c) (sound : Sound c) (there : c.There s) :
    Kept s late due (c.poll s) := by
  obtain ⟨es, waiting, inOrder⟩ := kept.buffered there
  have after : (c.bus.poll s).1.buffer? s = some es.tail := by
    rw [buffer?_poll, if_pos rfl, waiting]
    rfl
  have answer := poll_snd c.bus s
  rw [waiting] at answer
  cases es with
  | nil =>
    refine kept.aside rfl ?_ (alike_poll _ _).nextId.ge (after.trans waiting.symm)
    rw [answer, List.forall_mem_singleton]
    cases c.bus.alive <;> rfl
  | cons event rest =>
    have history : (c.poll s).history = c.history ++ [.polled s (.event event)] := by
      rw [Chronicle.poll, answer]
    have toldSame : told s (c.poll s).history = told s c.history := by
      rw [history, told_append]
      exact List.append_nil _
    constructor
    · intro new
      have known := sound.lt_of_subscribed there.1
      rw [← (alike_poll c.bus s).nextId] at known
      exact absurd known (Nat.not_lt.2 new)
    · intro _
      refine ⟨rest, after, ?_⟩
      have one : yielded s [Event.polled s (.event event)] = [event] := by simp [yielded]
      rw [toldSame, ← inOrder, history, yielded_append, one, List.append_assoc _ [event],
        List.singleton_append]
    · intro _
      rw [toldSame, history, since_append there.1, published_append]
      exact (kept.calls there).trans (by rw [published, published]; simp)

theorem Act.kept (act : Act c c') (sound : Sound c) (kept : Kept s late due c) :
    Kept s late due c' := by
  cases act with
  | register l alive =>
    exact kept.aside rfl (by simp [Event.concerns]) (Nat.le_succ _) rfl
  | dispose known =>
    exact kept.aside rfl (by simp [Event.concerns]) (nextId_dispose _ _).ge (buffer?_dispose _ _ _)
  | hold slots streams known => exact kept.silent (Nat.le_refl _) rfl
  | subscribe alive =>
    by_cases new : s = c.bus.nextId
    · exact kept.subscribe sound new
    · refine kept.aside rfl ?_ (Nat.le_succ _) ?_
      · simpa [Event.concerns] using Ne.symm new
      · rw [buffer?_subscribe, if_neg new, Option.or_none]
  | @dropStream s' there =>
    by_cases own : s = s'
    · subst s'
      -- nothing is said of a stream that was dropped
      have gone : ¬ (c.dropStream s).There s := fun there =>
        there.2 (List.mem_append_right _ (List.mem_singleton_self _))
      refine ⟨fun new => ?_, fun there => absurd there gone, fun there => absurd there gone⟩
      have known := sound.lt_of_subscribed there.1
      rw [← nextId_dispose c.bus s] at known
      exact absurd known (Nat.not_lt.2 new)
    · exact kept.aside rfl (by simp [Event.concerns]) (nextId_dispose _ _).ge
        (buffer?_dropStream _ _ _ own)
  | @poll s' there =>
    by_cases own : s = s'
    · subst s'
      exact kept.poll sound there
    · refine kept.aside rfl ?_ (alike_poll _ _).nextId.ge ?_
      · rw [List.forall_mem_singleton]
        cases (c.bus.poll s').2 with
        | event event => exact decide_eq_false (Ne.symm own)
        | _ => rfl
      · rw [buffer?_poll, if_neg own]

/-! ## A publish pays what it owes -/

/-- The listener of a stream puts the event that it was told of into the buffer. -/
theorem Kept.enqueue {event : ε} (kept : Kept s [event] due c) : Kept s [] due (c.enqueue s event) where
  fresh new := absurd (kept.fresh new).1 (List.cons_ne_nil _ _)
  buffered there := by
    obtain ⟨es, waiting, inOrder⟩ := kept.buffered there
    refine ⟨es ++ [event], ?_, ?_⟩
    · rw [Chronicle.enqueue, buffer?_enqueue, if_pos rfl, waiting]
      rfl
    · rw [List.append_nil, ← List.append_assoc]
      exact inOrder
  calls := kept.calls

/-- The listener of a stream is told of an event that was due. -/
theorem Kept.tell {number : Nat} {event : ε} (kept : Kept s [] ((number, event) :: due) c) :
    Kept s [event] due (c.tell number s event) := by
  have one : told s [Event.told number s event] = [(number, event)] := by simp [told]
  have before (there : (c.tell number s event).There s) : c.There s :=
    there.earlier rfl (by simp)
  constructor
  · intro new
    exact absurd (kept.fresh new).2.1 (List.cons_ne_nil _ _)
  · intro there
    obtain ⟨es, waiting, inOrder⟩ := kept.buffered (before there)
    refine ⟨es, waiting, ?_⟩
    rw [List.append_nil] at inOrder
    rw [Chronicle.tell, told_append, one, List.map_append, ← inOrder, yielded_append]
    simp [yielded]
  · intro there
    have calls := kept.calls (before there)
    rw [Chronicle.tell, told_append, one, since_append (before there).1, published_append,
      List.append_assoc]
    simpa [published] using calls

/-- A publish that begins owes its event to a stream that is there. -/
theorem Kept.begin (kept : Kept s [] due c) (sound : Sound c) (alive : c.bus.alive = true)
    (event : ε) :
    Kept s [] (duty s (published c.history).length event c.bus.listeners ++ due) (c.begin event) := by
  have toldSame : told s (c.begin event).history = told s c.history := by
    rw [Chronicle.begin, told_append]
    exact List.append_nil _
  have yieldedSame : yielded s (c.begin event).history = yielded s c.history := by
    rw [Chronicle.begin, yielded_append]
    exact List.append_nil _
  have before (there : (c.begin event).There s) : c.There s := there.earlier rfl (by simp)
  constructor
  · intro new
    have absent : s ∉ c.bus.listeners.map Prod.fst := by
      intro listed
      obtain ⟨l, among, rfl⟩ := List.mem_map.1 listed
      have known := sound.lt_of_mem_registrations (sound.sublist_listeners.subset among)
      exact absurd known (Nat.not_lt.2 new)
    rw [duty, if_neg absent, toldSame, yieldedSame]
    exact kept.fresh new
  · intro there
    rw [toldSame, yieldedSame]
    exact kept.buffered (before there)
  · intro there
    have listening : s ∈ c.bus.listeners.map Prod.fst :=
      List.mem_map_of_mem (sound.listening (before there) alive)
    rw [duty, if_pos listening, toldSame, Chronicle.begin, since_append (before there).1,
      published_append]
    -- what is due now is due besides what was due before
    show (told s c.history ++ ([_] ++ due)).Perm (published (since s c.history) ++ [_])
    calc told s c.history ++ ([_] ++ due)
      _ = told s c.history ++ [_] ++ due := (List.append_assoc _ _ _).symm
      _ |>.Perm (told s c.history ++ due ++ [_]) := by
        rw [List.append_assoc, List.append_assoc]
        exact List.perm_append_comm.append_left _
      _ |>.Perm _ := (kept.calls (before there)).append_right _

end Chronicle
end CertWatch.Bus
