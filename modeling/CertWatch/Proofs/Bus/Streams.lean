import CertWatch.Proofs.Bus.Dues

/-!
# What a stream yields

A publish that is made by a listener is paid before the one it is made in, so whatever a publish does,
in the end it has paid what it owed (`Runs.keeps`), and between publishes nothing is due.
-/

namespace CertWatch.Bus
set_option autoImplicit false

variable {ε : Type}

namespace Chronicle

variable {c c' : Chronicle ε} {s : Nat} {due : List (Nat × ε)}

/-- Something is done, and what is owed to a stream is paid. -/
def Keeps (s : Nat) (c : Chronicle ε) : Task ε → Chronicle ε → Prop
  | .perform deeds _, c' => ∀ late due, Owes s deeds late → Kept s late due c → Kept s [] due c'
  | .carryOut deed _, c' => ∀ late due, Owes s [deed] late → Kept s late due c → Kept s [] due c'
  | .publish _ _, c' => ∀ due, Kept s [] due c → Kept s [] due c'
  | .deliver number event ls _, c' =>
    (ls.map Prod.fst).Nodup → (∀ l ∈ ls, l ∈ registrations c.history) →
      ∀ due, Kept s [] (duty s number event ls ++ due) c → Kept s [] due c'

/-- A listener is called: if it is that of the stream, this pays what was owed. -/
theorem Kept.called {c₁ : Chronicle ε} {number id : Nat} {event : ε} {l : Listener ε}
    {rest : List (Nat × Listener ε)} {o : Outcome}
    (kept : Kept s [] (duty s number event ((id, l) :: rest) ++ due) c) (sound : Sound c)
    (alive : c.bus.alive = true) (distinct : (((id, l) :: rest).map Prod.fst).Nodup)
    (registered : ∀ l' ∈ (id, l) :: rest, l' ∈ registrations c.history)
    (runs : Runs (c.tell number id event) (.perform (l event) o) c₁) (only : Only s c₁)
    (keeps : Keeps s (c.tell number id event) (.perform (l event) o) c₁) :
    (Sound c₁ ∧ c₁.bus.alive = true ∧ ∀ l' ∈ rest, l' ∈ registrations c₁.history) ∧
      Kept s [] (duty s number event rest ++ due) c₁ := by
  obtain ⟨later, alive⟩ := runs.later alive
  have later : Later c c₁ := later.head (.tell number id event)
  obtain ⟨first, others⟩ := List.forall_mem_cons.1 registered
  obtain ⟨notAgain, -⟩ := List.nodup_cons.1 distinct
  refine ⟨⟨later.sound sound, alive, fun l' among => later.registrations (others l' among)⟩, ?_⟩
  by_cases own : id = s
  · subst own
    have paid : duty id number event rest = [] := if_neg notAgain
    rw [paid]
    rcases of_mem_registrations first with subscription | ⟨-, rfl⟩
    · exact kept_of_registered (later.sound sound) (later.mem subscription)
    · rw [duty_cons_self] at kept
      exact keeps [event] due (.feed event) kept.tell
  · rw [duty_cons_of_ne own] at kept
    have kept : Kept s [] (duty s number event rest ++ due) (c.tell number id event) :=
      kept.aside rfl (by simp [Event.concerns, own]) (Nat.le_refl _) rfl
    refine keeps [] _ (.nothing ?_) kept
    rcases of_mem_registrations first with subscription | ⟨-, rfl⟩
    · exact only.earlier later id l subscription event
    · exact List.forall_mem_singleton.2 (.enqueue event own)

theorem Runs.keeps {t : Task ε} (runs : Runs c t c') (sound : Sound c) (alive : c.bus.alive = true)
    (only : Only s c') : Keeps s c t c' := by
  induction runs with
  | nil =>
    intro late due owes kept
    cases owes
    exact kept
  | next first more ihFirst ihMore =>
    intro late due owes kept
    obtain ⟨later, alive'⟩ := first.later alive
    obtain ⟨owes, owes'⟩ := owes_cons owes
    have kept := ihFirst sound alive (only.earlier (more.later alive').1) late due owes kept
    exact ihMore (later.sound sound) alive' only [] due owes' kept
  | stop first ih =>
    intro late due owes kept
    exact ih sound alive only late due (owes_cons owes).1 kept
  | meanwhile act more ih =>
    intro late due owes kept
    exact ih (act.sound sound) (act.alive_eq.trans alive) only late due owes (act.kept sound kept)
  | note line =>
    intro late due owes kept
    cases owes
    exact kept.write _ _
  | look ends ih =>
    intro late due owes kept
    cases owes with
    | nothing spares =>
      cases spares _ (List.mem_singleton_self _) with
      | look spares => exact ih sound alive only [] due (.nothing (spares _)) kept
  | @dispose c slot =>
    intro late due owes kept
    cases owes
    rw [Chronicle.disposeSlot, Bus.disposeSlot]
    cases holds : c.bus.slots.get? slot with
    | none => simpa using kept
    | some id =>
      exact kept.aside rfl (by simp [Event.concerns]) (nextId_dispose _ _).ge (buffer?_dispose _ _ _)
  | register slot l =>
    intro late due owes kept
    cases owes
    exact kept.aside rfl (by simp [Event.concerns]) (Nat.le_succ _) rfl
  | nested report ends ih =>
    intro late due owes kept
    cases owes
    have only' := only.earlier (.single (.write _ _))
    exact (ih sound alive only' due kept).write _ _
  | panic message =>
    intro late due owes kept
    cases owes
    exact kept
  | enqueue s' event =>
    intro late due owes kept
    cases owes with
    | nothing spares =>
      cases spares _ (List.mem_singleton_self _) with
      | enqueue _ other =>
        refine kept.silent (Nat.le_refl _) ?_
        rw [buffer?_enqueue, if_neg other.symm]
    | feed => exact kept.enqueue
  | @publish c c' event n ends ih =>
    intro due kept
    have sound' := (Happens.begin event).sound sound
    exact ih sound' alive only sound.nodup_listeners
      (fun l listed => sound'.sublist_listeners.subset listed) due (kept.begin sound alive event)
  | done =>
    intro distinct registered due kept
    exact kept
  | @returned c _ _ number id _ event _ _ called more ihCalled ihMore =>
    intro distinct registered due kept
    have told : Sound (c.tell number id event) := (Happens.tell number id event).sound sound
    have only' := only.earlier (more.later (called.later alive).2).1
    obtain ⟨⟨sound', alive', registered'⟩, kept'⟩ :=
      kept.called sound alive distinct registered called only' (ihCalled told alive only')
    exact ihMore sound' alive' only (List.nodup_cons.1 distinct).2 registered' due kept'
  | @panicked c _ _ number id _ event _ _ _ called more ihCalled ihMore =>
    intro distinct registered due kept
    have told : Sound (c.tell number id event) := (Happens.tell number id event).sound sound
    have only' := only.earlier ((more.later (called.later alive).2).1.head (.write _ _))
    obtain ⟨⟨sound', alive', registered'⟩, kept'⟩ :=
      kept.called sound alive distinct registered called only' (ihCalled told alive only')
    exact ihMore ((Happens.write _ _).sound sound') alive' only (List.nodup_cons.1 distinct).2
      registered' due (kept'.write _ _)

theorem Step.kept (step : Step c c') (sound : Sound c) (only : Only s c') (kept : Kept s [] [] c) :
    Kept s [] [] c' := by
  cases step with
  | act act => exact act.kept sound kept
  | publish alive runs => exact runs.keeps sound alive only [] kept
  | close alive => exact kept.aside rfl (by simp [Event.concerns]) (Nat.le_refl _) rfl

/-- Between publishes a stream is owed nothing. -/
theorem Reached.kept (reached : Reached c) (only : Only s c) : Kept s [] [] c := by
  induction reached with
  | refl => exact kept_new
  | tail leads step ih =>
    have sound : Sound _ := (Leads.later leads).sound sound_new
    exact step.kept sound only (ih (only.earlier step.later))

/-! ## Publishes by their numbers -/

/-- A publish that begins has the next number. -/
theorem Happens.published (happens : Happens c c') :
    Bus.published c'.history = Bus.published c.history ∨ ∃ event,
      Bus.published c'.history = Bus.published c.history ++ [((Bus.published c.history).length, event)] := by
  cases happens with
  | act act =>
    left
    cases act with
    | hold slots streams known => rfl
    | _ => exact published_append.trans (List.append_nil _)
  | registerAs slot l alive => exact .inl (published_append.trans (List.append_nil _))
  | disposeSlot slot =>
    left
    rw [Chronicle.disposeSlot, published_append]
    cases c.bus.slots.get? slot <;> exact List.append_nil _
  | write trace log => exact .inl rfl
  | enqueue s event => exact .inl rfl
  | begin event => exact .inr ⟨event, published_append⟩
  | tell number id event => exact .inl (published_append.trans (List.append_nil _))
  | close => exact .inl (published_append.trans (List.append_nil _))

theorem Moment.numbered (h : Moment c) :
    (published c.history).map Prod.fst = List.range (published c.history).length := by
  induction h with
  | refl => rfl
  | tail _ happens ih =>
    rcases happens.published with same | ⟨event, more⟩
    · rw [same]
      exact ih
    · rw [more, List.map_append, ih, List.length_append, List.length_singleton, List.range_succ]
      rfl

/-! ## The end of a stream -/

/-- What waits in a stream that nobody puts anything into: nothing, if nothing did. -/
theorem Act.buffer?_of_empty (act : Act c c') (empty : c.bus.buffer? s = some [])
    (still : .dropped s ∉ c'.history) : c'.bus.buffer? s = some [] := by
  cases act with
  | register l alive => exact empty
  | dispose known => exact (buffer?_dispose _ _ _).trans empty
  | hold slots streams known => exact empty
  | subscribe alive =>
    rw [Chronicle.subscribe, buffer?_subscribe, empty]
    rfl
  | @dropStream s' there =>
    have other : s ≠ s' := by
      rintro rfl
      exact still (List.mem_append_right _ (List.mem_singleton_self _))
    exact (buffer?_dropStream _ _ _ other).trans empty
  | poll there =>
    rw [Chronicle.poll, buffer?_poll, empty]
    split <;> rfl

/-- When the bus is gone and nothing waits in a stream, this stays so. -/
theorem Leads.ended (leads : Leads c c') (gone : c.bus.alive = false)
    (empty : c.bus.buffer? s = some []) (still : .dropped s ∉ c'.history) :
    c'.bus.alive = false ∧ c'.bus.buffer? s = some [] := by
  induction leads with
  | refl => exact ⟨gone, empty⟩
  | tail leads step ih =>
    obtain ⟨gone, empty⟩ := ih fun dropped => still (step.later.mem dropped)
    cases step with
    | act act => exact ⟨act.alive_eq.trans gone, act.buffer?_of_empty empty still⟩
    | publish alive runs => cases gone.symm.trans alive
    | close alive => cases gone.symm.trans alive

/-- **Event streams.** Whenever a stream exists, between publishes, whatever has happened on the bus, if
nobody but its listener has put anything into its buffer: what the stream has yielded, followed by what
waits in it, is what its listener was told, in that order; and its listener was told of every publish
that was begun since the stream was registered, of each once, and of no other. To be asked is answered
with "pending" only if nothing waits and the bus exists. When the bus is gone, the stream yields what
waits in it and then ends, and it has ended for good. Every publish that comes to an end leads to such a
moment again. -/
theorem stream_exact (reached : Reached c) (there : c.There s) (only : Only s c) :
    (∃ es, c.bus.buffer? s = some es ∧
      yielded s c.history ++ es = (told s c.history).map Prod.snd ∧
      ((c.bus.poll s).2 = .pending ↔ es = [] ∧ c.bus.alive = true) ∧
      (c.bus.alive = false →
        ∀ n, c.bus.answers s (es.length + n) = es.map .event ++ List.replicate n .finished)) ∧
    (told s c.history).Perm (published (since s c.history)) ∧
    ((published c.history).map Prod.fst).Nodup ∧
    ((c.bus.poll s).2 = .finished →
      ∀ c', Leads c c' → c'.There s → (c'.bus.poll s).2 = .finished) ∧
    ∀ event b' n, c.bus.alive = true → c.bus.Publishes event b' n →
      ∃ more, Reached ⟨b', c.history ++ more⟩ := by
  have kept := reached.kept only
  have moment : Moment c := Leads.later reached
  obtain ⟨es, waiting, inOrder⟩ := kept.buffered there
  have answer := poll_snd c.bus s
  rw [waiting] at answer
  rw [List.append_nil] at inOrder
  refine ⟨⟨es, waiting, inOrder, ?_, fun gone n => answers_of_gone gone waiting n⟩, ?_, ?_, ?_, ?_⟩
  · rw [answer]
    cases es with
    | nil => cases c.bus.alive <;> simp
    | cons event rest => simp
  · have calls := kept.calls there
    rwa [List.append_nil] at calls
  · rw [moment.numbered]
    exact List.nodup_range
  · intro finished c' leads there'
    rw [answer] at finished
    cases es with
    | nil =>
      have gone : c.bus.alive = false := by
        cases alive : c.bus.alive with
        | false => rfl
        | true => simp [alive] at finished
      obtain ⟨gone', waiting'⟩ := leads.ended gone waiting there'.2
      rw [poll_snd, waiting', gone']
      rfl
    | cons event rest => cases finished
  · intro event b' n alive ends
    obtain ⟨history, runs⟩ := exists_runs_of_publishes ends
    obtain ⟨more, rfl : history = _⟩ := (runs.later alive).1.history
    exact ⟨more, Relation.ReflTransGen.tail reached (.publish alive runs)⟩

/-- A listener that publishes another event when it is told of the first. -/
def relaying : Listener Nat
  | 0 => [.publish 1 toString]
  | _ => []

/-- That listener, and a stream behind it. -/
def relay : Chronicle Nat := (({} : Chronicle Nat).register relaying).subscribe

/-- The stream hears of the other event first. It yields it, and when the bus is gone it yields the first
event and ends. -/
theorem stream_exact_of_relay : ∃ c : Chronicle Nat, c.Reached ∧ c.There 1 ∧ Only 1 c ∧
    published c.history = [(0, 0), (1, 1)] ∧ told 1 c.history = [(1, 1), (0, 0)] ∧
    yielded 1 c.history = [1] ∧ c.bus.buffer? 1 = some [0] ∧
    c.bus.answers 1 3 = [.event 0, .finished, .finished] := by
  have start : relay.Reached :=
    (Relation.ReflTransGen.single (.act (.register _ rfl))).tail (.act (.subscribe rfl))
  -- the listener is told of the first event and publishes the other, then the stream is told of the first
  obtain ⟨c, runs, history, alive, waiting⟩ : ∃ c, Runs relay (.publish 0 2) c ∧
      c.history = relay.history ++ [.published 0 0, .told 0 0 0, .published 1 1, .told 1 0 1,
        .told 1 1 1, .told 0 1 0] ∧ c.bus.alive = true ∧ c.bus.buffer? 1 = some [1, 0] :=
    ⟨_, .publish (.returned (.next (.nested toString (.publish (.returned .nil
      (.returned (.next (.enqueue 1 1) .nil) .done)))) .nil)
      (.returned (.next (.enqueue 1 0) .nil) .done)), rfl, rfl, rfl⟩
  have there : c.There 1 := by
    constructor <;> simp [history, relay, Chronicle.register, Chronicle.subscribe, Bus.register]
  have answer : (c.bus.poll 1).2 = .event 1 := by rw [poll_snd, waiting]
  have polled : (c.poll 1).close.history = c.history ++ [.polled 1 (.event 1)] ++ [.closed] := by
    rw [close, Chronicle.poll, answer]
  have reached : (c.poll 1).close.Reached :=
    ((start.tail (.publish rfl runs)).tail (.act (.poll there))).tail
      (.close ((alike_poll _ _).alive.trans alive))
  have there' : (c.poll 1).close.There 1 := by
    rw [There, polled]
    simpa [There] using there
  have only : Only 1 (c.poll 1).close := by
    intro id l registered event deed among
    rw [polled, history] at registered
    obtain ⟨-, rfl⟩ : id = 0 ∧ l = relaying := by
      simpa [relay, Chronicle.register, Chronicle.subscribe, Bus.register] using registered
    cases event with
    | zero =>
      obtain rfl := List.mem_singleton.1 among
      exact .publish 1 toString
    | succ n => cases among
  obtain ⟨⟨es, waiting, inOrder, -, ends⟩, -⟩ := stream_exact reached there' only
  have told : told 1 (c.poll 1).close.history = [(1, 1), (0, 0)] := by
    rw [polled, history]
    rfl
  have yielded : yielded 1 (c.poll 1).close.history = [1] := by
    rw [polled, history]
    rfl
  have left : es = [0] := by simpa [told, yielded] using inOrder
  subst left
  refine ⟨_, reached, there', only, ?_, told, yielded, waiting, ends rfl 2⟩
  rw [polled, history]
  rfl

end Chronicle
end CertWatch.Bus
