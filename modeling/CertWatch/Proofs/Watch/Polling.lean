import Mathlib.Logic.Function.Basic
import CertWatch.Proofs.Line
import CertWatch.Proofs.Run
import CertWatch.Proofs.Watch.Snapshot

/-!
# Polling

Any number of jobs poll with one watcher, each when it likes and as often as it likes. A job waits in
the line for its turn, then carries out the plan of a poll call by call, and every call is answered by
anything at all: the store may change, repeat itself or fail between any two of them. A job may also
be called off wherever it is.

A listener that was there from the beginning can rebuild the snapshot of the watcher from the changes
that it was told. What carries the proof is that only the head of the line has a plan under way, and
that this plan still is one of the watcher as it stands, so nothing is concluded from a memory that
was replaced meanwhile.
-/

namespace CertWatch
set_option autoImplicit false

/-! ## A stream from the beginning -/

namespace Bus

variable {ε : Type}

/-- The bus has one listener, a stream that was told some events. -/
structure Streams (b : Bus ε) (told : List ε) : Prop where
  listeners : b.listeners = [(0, fun event => [.enqueue 0 event])]
  buffers : b.buffers = [(0, told)]

theorem streams_subscribeAs (name : String) : (({} : Bus ε).subscribeAs name).Streams [] :=
  ⟨rfl, rfl⟩

/-- What is published is told the stream, after all that it was told before. -/
theorem Streams.publish {b : Bus ε} {told : List ε} (h : b.Streams told) {depth : Nat} (deep : 0 < depth)
    (event : ε) : ∃ b', b.publish depth event = some (b', 1) ∧ b'.Streams (told ++ [event]) := by
  obtain ⟨depth, rfl⟩ := Nat.exists_eq_succ_of_ne_zero (Nat.ne_of_gt deep)
  refine ⟨b.enqueue 0 event, ?_, ?_, ?_⟩
  · rw [Bus.publish, h.listeners]
    rfl
  · exact h.listeners
  · simp [enqueue, h.buffers]

end Bus

/-- A watcher and the plans of the polls that are under way, by the number of the job. -/
structure Polling where
  watcher : Watcher
  plans : Nat → Option (Plan (Memory × Changes)) := fun _ => none

namespace Polling

/-- A watcher with a memory before any poll, and a stream that listens to it. -/
def start (scope : Scope) (memory : Memory) (name : String) : Polling :=
  ⟨{ scope, memory, bus := ({} : Bus (Nat × Changes)).subscribeAs name }, fun _ => none⟩

/-- The changes that the stream was told, in the order in which they were published. -/
def heard (p : Polling) : List Changes := (p.watcher.bus.buffers.flatMap Prod.snd).map Prod.snd

/-- A job waits for its turn. -/
def enter (p : Polling) (id : Nat) : Polling :=
  { p with watcher := { p.watcher with turn := p.watcher.turn.enter id } }

/-- A job goes on with a plan. -/
def carry (p : Polling) (id : Nat) (plan : Plan (Memory × Changes)) : Polling :=
  { p with plans := Function.update p.plans id (some plan) }

/-- A job has nothing more to do with a watcher. -/
def leave (p : Polling) (id : Nat) (w : Watcher) : Polling where
  watcher := { w with turn := w.turn.leave id }
  plans := Function.update p.plans id none

/-- What happens to a watcher. A poll is concluded with what its caller is told. -/
inductive Event where
  | entered (id : Nat)
  | began (id : Nat)
  | answered (id : Nat)
  | concluded (id : Nat) (told : Except Failure (Option Changes))
  | calledOff (id : Nat)

/-- The steps of jobs that poll. -/
inductive Step : Polling → Event → Polling → Prop where
  | enter {p : Polling} (id : Nat) (new : id ∉ p.watcher.turn.members) :
      Step p (.entered id) (p.enter id)
  | begin {p : Polling} (id : Nat) (turn : p.watcher.turn.holds id = true)
      (idle : p.plans id = none) :
      Step p (.began id) (p.carry id p.watcher.plan)
  | answer {p : Polling} (id : Nat) {c : Call}
      {next : Except Failure c.Answer → Plan (Memory × Changes)}
      (waits : p.plans id = some (.call c next)) (r : Except Failure c.Answer) :
      Step p (.answered id) (p.carry id (next r))
  | substitute {p : Polling} (id : Nat) {key : String} {failure : DecryptFailure}
      {next : Option Bytes → Plan (Memory × Changes)}
      (waits : p.plans id = some (.consult key failure next)) (bytes : Option Bytes) :
      Step p (.answered id) (p.carry id (next bytes))
  | conclude {p : Polling} (id : Nat) {result : Except Failure (Memory × Changes)}
      (ended : p.plans id = some (.done result)) (now : Nat) :
      Step p (.concluded id (p.watcher.conclude now result).2)
        (p.leave id (p.watcher.conclude now result).1)
  | callOff {p : Polling} (id : Nat) : Step p (.calledOff id) (p.leave id p.watcher)

/-- What a step does to what the stream was told and to the snapshot, by what happened. -/
def Effect (p : Polling) : Event → Polling → Prop
  | .concluded _ (.ok (some c)), p' => p'.heard = p.heard ++ [c]
  | .concluded _ (.ok none), p' =>
    p'.heard = p.heard ∧ p'.watcher.memory.snapshot = p.watcher.memory.snapshot
  | _, p' => p'.heard = p.heard ∧ p'.watcher.memory = p.watcher.memory

/-- What holds between any two steps. -/
structure Consistent (blank : Snapshot) (p : Polling) : Prop where
  line : p.watcher.turn.members.Nodup
  /-- A plan that is under way is that of the head of the line. -/
  head : ∀ id plan, p.plans id = some plan → p.watcher.turn.holds id = true
  /-- However such a plan ends, a poll that began now could end so. -/
  current : ∀ id plan r, p.plans id = some plan → plan.Ends r → p.watcher.plan.Ends r
  kind : p.watcher.memory.blank = blank
  stream : ∃ told, p.watcher.bus.Streams told
  replayed : Changes.replay p.heard blank = some p.watcher.memory.snapshot
  sets : ∀ c ∈ p.heard, c.isEmpty = false ∧ c.NamesOnce

section Concluding

variable {w : Watcher} {memory : Memory} {changes : Changes} {told : List (Nat × Changes)} {now : Nat}

theorem heard_of_streams {p : Polling} {told : List (Nat × Changes)} (h : p.watcher.bus.Streams told) :
    p.heard = told.map Prod.snd := by
  simp [heard, h.buffers]

/-- A poll without changes replaces the memory and tells nothing. -/
theorem conclude_of_isEmpty (empty : changes.isEmpty = true) :
    w.conclude now (.ok (memory, changes)) = ({ w with memory := memory }, .ok none) := by
  simp [Watcher.conclude, Watcher.publish, empty]

/-- A poll with changes replaces the memory and tells the stream of them. -/
theorem conclude_of_changes (memory : Memory) (now : Nat) (h : w.bus.Streams told)
    (found : changes.isEmpty = false) :
    ∃ bus, w.conclude now (.ok (memory, changes)) =
        ({ w with memory := memory, bus := bus }, .ok (some changes)) ∧
      bus.Streams (told ++ [(now, changes)]) := by
  obtain ⟨bus, published, streams⟩ := h.publish Bus.deepest_pos (now, changes)
  refine ⟨bus, ?_, streams⟩
  simp [Watcher.conclude, Watcher.publish, found, published]

end Concluding

section Steps

variable {blank : Snapshot} {p p' : Polling} {e : Event}

/-- While a job goes on with a plan, no other job has one. -/
theorem Consistent.alone (h : p.Consistent blank) {id other : Nat} {plan plan' : Plan (Memory × Changes)}
    (here : p.plans id = some plan) (there : p.plans other = some plan') : other = id :=
  Line.eq_of_holds (h.head id plan here) (h.head other plan' there)

theorem Consistent.carry (h : p.Consistent blank) {id : Nat} {plan : Plan (Memory × Changes)}
    (turn : p.watcher.turn.holds id = true) (current : ∀ r, plan.Ends r → p.watcher.plan.Ends r) :
    (p.carry id plan).Consistent blank := by
  refine { h with head := ?_, current := fun other plan' r under => ?_ }
  · exact forall_update (fun _ _ => turn) fun other plan' _ under => h.head other plan' under
  · revert other plan'
    refine forall_update ?_ fun other plan' _ under => h.current other plan' r under
    rintro _ ⟨⟩
    exact current r

/-- A job leaves: the others stay as they were, as long as the memory does if one of them has a plan
under way. -/
theorem Consistent.leave (h : p.Consistent blank) {id : Nat} {w : Watcher}
    (turn : w.turn = p.watcher.turn)
    (plan : (∃ other plan, other ≠ id ∧ p.plans other = some plan) → w.plan = p.watcher.plan)
    (kind : w.memory.blank = blank) {told : List (Nat × Changes)} (stream : w.bus.Streams told)
    (replayed : Changes.replay (told.map Prod.snd) blank = some w.memory.snapshot)
    (sets : ∀ c ∈ told.map Prod.snd, c.isEmpty = false ∧ c.NamesOnce) :
    (p.leave id w).Consistent blank := by
  have heard : (p.leave id w).heard = told.map Prod.snd := heard_of_streams (p := p.leave id w) stream
  have others : ∀ other plan, (p.leave id w).plans other = some plan →
      other ≠ id ∧ p.plans other = some plan :=
    forall_update (fun _ same => nomatch same) fun other plan ne under => ⟨ne, under⟩
  refine ⟨?_, ?_, ?_, kind, ⟨told, stream⟩, heard ▸ replayed, heard ▸ sets⟩
  · exact Line.nodup_leave (turn ▸ h.line)
  · intro other plan' under
    obtain ⟨ne, under⟩ := others other plan' under
    exact Line.holds_leave (turn ▸ h.head other plan' under) ne.symm
  · intro other plan' r under ends
    obtain ⟨ne, under⟩ := others other plan' under
    have same := plan ⟨other, plan', ne, under⟩
    exact same ▸ h.current other plan' r under ends

/-- A job that has come to nothing leaves. -/
theorem Consistent.unchanged (h : p.Consistent blank) (id : Nat) :
    (p.leave id p.watcher).Consistent blank := by
  obtain ⟨told, stream⟩ := h.stream
  have heard := heard_of_streams stream
  exact h.leave rfl (fun _ => rfl) h.kind stream (heard ▸ h.replayed) (heard ▸ h.sets)

/-- A poll that succeeds leads to its snapshot, and what the stream hears of it leads there too. -/
theorem Consistent.conclude (h : p.Consistent blank) {id : Nat} {memory : Memory} {changes : Changes}
    (ended : p.plans id = some (.done (.ok (memory, changes)))) (now : Nat) :
    (p.leave id (p.watcher.conclude now (.ok (memory, changes))).1).Consistent blank ∧
      p.Effect (.concluded id (p.watcher.conclude now (.ok (memory, changes))).2)
        (p.leave id (p.watcher.conclude now (.ok (memory, changes))).1) := by
  obtain ⟨told, stream⟩ := h.stream
  have heard := heard_of_streams stream
  have replayed := heard ▸ h.replayed
  have sets := heard ▸ h.sets
  have advances : p.watcher.memory.Advances memory changes :=
    Memory.advances_of_ends (h.current id _ _ ended (.done _))
  have kind : memory.blank = blank := advances.blank.trans h.kind
  have nobody : ¬ ∃ other plan, other ≠ id ∧ p.plans other = some plan := by
    rintro ⟨other, plan, ne, under⟩
    exact ne (h.alone ended under)
  cases empty : changes.isEmpty with
  | true =>
    have same := advances.snapshot_of_isEmpty empty
    rw [conclude_of_isEmpty empty]
    refine ⟨h.leave rfl (fun other => absurd other nobody) kind stream ?_ sets, rfl, same⟩
    rw [replayed, same]
  | false =>
    obtain ⟨bus, concluded, stream'⟩ := conclude_of_changes memory now stream empty
    rw [concluded]
    have after : (told ++ [(now, changes)]).map Prod.snd = told.map Prod.snd ++ [changes] := by simp
    refine ⟨h.leave rfl (fun other => absurd other nobody) kind stream' ?_ ?_, ?_⟩
    · rw [after, Changes.replay_append replayed, advances.apply]
    · intro c hc
      rw [after, List.mem_append, List.mem_singleton] at hc
      obtain hc | rfl := hc
      · exact sets c hc
      · exact ⟨empty, advances.once⟩
    · show (p.leave id _).heard = p.heard ++ [changes]
      have leaving : (p.leave id { p.watcher with memory := memory, bus := bus }).watcher.bus.Streams
          (told ++ [(now, changes)]) := stream'
      rw [heard_of_streams leaving, after, heard]

/-- A step keeps what holds between steps, and does what is said of it. -/
theorem Consistent.step (h : p.Consistent blank) (step : Step p e p') :
    p'.Consistent blank ∧ p.Effect e p' := by
  cases step with
  | enter id new =>
    refine ⟨{ h with line := ?_, head := ?_ }, rfl, rfl⟩
    · exact Line.nodup_enter h.line new
    · intro other plan under
      exact Line.holds_enter (h.head other plan under) id
  | begin id turn idle => exact ⟨h.carry turn fun _ ends => ends, rfl, rfl⟩
  | @answer id c next waits r =>
    refine ⟨h.carry (h.head id _ waits) ?_, rfl, rfl⟩
    intro result ends
    exact h.current id _ result waits (.call r ends)
  | @substitute id key failure next waits bytes =>
    refine ⟨h.carry (h.head id _ waits) ?_, rfl, rfl⟩
    intro result ends
    exact h.current id _ result waits (.consult bytes ends)
  | callOff id => exact ⟨h.unchanged id, rfl, rfl⟩
  | @conclude id result ended now =>
    cases result with
    | error f => exact ⟨h.unchanged id, rfl, rfl⟩
    | ok found => exact h.conclude ended now

theorem consistent_start (scope : Scope) {memory : Memory} (fresh : memory.snapshot = memory.blank)
    (name : String) : (start scope memory name).Consistent memory.blank where
  line := List.nodup_nil
  head _ _ under := by cases under
  current _ _ _ under := by cases under
  kind := rfl
  stream := ⟨[], Bus.streams_subscribeAs name⟩
  replayed := congrArg some fresh.symm
  sets _ told := by cases told

end Steps

/-- **Replay.** Whatever polls are made of a watcher, in whatever order, and whatever their calls are
answered: the changes that the stream was told, applied in order to the empty snapshot, each fit and
give the watcher's snapshot. Each set of changes has some and names no key twice. A poll that fails,
or finds no changes, tells nothing and leaves the snapshot as it was. -/
theorem replay_heard {scope : Scope} {memory : Memory} {name : String} {p : Polling}
    (fresh : memory.snapshot = memory.blank) (run : Run Step (start scope memory name) p) :
    Changes.replay p.heard memory.blank = some p.watcher.memory.snapshot ∧
      (∀ c ∈ p.heard, c.isEmpty = false ∧ c.NamesOnce) ∧
      ∀ e p', Step p e p' → p.Effect e p' := by
  have consistent := run.keeps (fun _ _ _ h step => (h.step step).1) (consistent_start scope fresh name)
  refine ⟨consistent.replayed, consistent.sets, ?_⟩
  intro e p' step
  exact (consistent.step step).2

/-- One poll that finds one record: the stream hears of it, and the replay gives its digest. -/
theorem replay_heard_of_first_poll :
    ∃ p, Run Step (start ⟨"n", none⟩ (.records {}) "") p ∧ p.heard.map Changes.size = [1] ∧
      Changes.replay p.heard (.records .empty) = some p.watcher.memory.snapshot := by
  have entered : Step (start ⟨"n", none⟩ (.records {}) "") (.entered 7) _ := .enter 7 (by simp [start])
  have run := (Run.single entered).tail (.begin 7 rfl rfl) |>.tail (.answer 7 rfl (.ok ["n/a"]))
    |>.tail (.answer 7 rfl (.ok (some [1]))) |>.tail (.conclude 7 rfl 0)
  exact ⟨_, run, by rfl, (replay_heard rfl run).1⟩

end Polling
end CertWatch
