import Mathlib.Logic.Function.Basic
import CertWatch.Proofs.Config
import CertWatch.Proofs.Loop.Discipline

/-!
# Shutting a service down

A service among the loops of its process: its own two, started as its settings say, and any others,
which whoever started them stops or drops as they like. Some of those may poll what the service
watches, and some are loops that the service itself has started and given up.

A service waits for its loops in order and stops waiting at the first that has died. It starts loops
anew only when one of those that it had has died, and nobody waits for the ones that it gives up then.
So what is in flight when its owner is told that it has shut down depends on which loops have died.
-/

namespace CertWatch
set_option autoImplicit false

namespace PollLoop

variable {loops : List PollLoop}

/-- One who waits is told that all is well when all loops have ended as they were told. -/
theorem joined_eq_ok_iff : joined loops = some (.ok ()) ↔ ∀ l ∈ loops, l.phase = .ended := by
  induction loops with
  | nil => simp [joined]
  | cons l rest ih =>
    cases phase : l.phase <;> simp [joined, isOver, outcome, phase, ih]

/-- One who waits is told of the first loop that has died, when all before it have ended. -/
theorem joined_map_eq_error {own : List Nat} {g : Nat → PollLoop} {f : Failure}
    (told : joined (own.map g) = some (.error f)) :
    ∃ before n after, own = before ++ n :: after ∧ (∀ m ∈ before, (g m).phase = .ended) ∧
      (g n).phase = .died := by
  induction own with
  | nil => simp [joined] at told
  | cons n rest ih =>
    cases phase : (g n).phase with
    | died => exact ⟨[], n, rest, rfl, by simp, phase⟩
    | ended =>
      have told' : joined (rest.map g) = some (.error f) := by
        simpa [joined, isOver, outcome, phase] using told
      obtain ⟨before, m, after, rfl, ended, died⟩ := ih told'
      refine ⟨n :: before, m, after, rfl, ?_, died⟩
      simpa [phase] using ended
    | fresh => simp [joined, isOver, phase] at told
    | waiting t => simp [joined, isOver, phase] at told
    | stepping t => simp [joined, isOver, phase] at told

/-- What one who waits is told stays true as long as the loops that are over stay as they are. -/
theorem joined_map_of_held {own : List Nat} {f g : Nat → PollLoop} {r : Except Failure Unit}
    (held : ∀ n ∈ own, (f n).isOver = true → (g n).phase = (f n).phase ∧ (g n).name = (f n).name)
    (told : joined (own.map f) = some r) : joined (own.map g) = some r := by
  induction own with
  | nil => exact told
  | cons n rest ih =>
    have ih := ih fun m mem => held m (List.mem_cons_of_mem _ mem)
    cases isOver : (f n).isOver with
    | false => simp [joined, isOver] at told
    | true =>
      obtain ⟨phase, name⟩ := held n List.mem_cons_self isOver
      have isOver' : (g n).isOver = true := by simpa [PollLoop.isOver, phase] using isOver
      have outcome' : (g n).outcome = (f n).outcome := by simp [outcome, phase, name]
      simp only [List.map_cons, joined, isOver, isOver', outcome', if_true] at told ⊢
      cases outcome : (f n).outcome with
      | error e => simpa [outcome] using told
      | ok u => exact ih (by simpa [outcome] using told)

end PollLoop

/-- What became of a loop: more has happened to it, and if it was over it was left as it was. -/
structure Course.Later (c c' : Course) : Prop where
  past : c.past <+: c'.past
  held : c.loop.isOver = true → c'.loop.phase = c.loop.phase ∧ c'.loop.name = c.loop.name

namespace Course

variable {c c' c'' : Course} {now : Nat} {e : Event}

theorem Later.refl (c : Course) : Later c c := ⟨List.prefix_refl _, fun _ => ⟨rfl, rfl⟩⟩

theorem Later.trans (first : Later c c') (second : Later c' c'') : Later c c'' where
  past := first.past.trans second.past
  held isOver := by
    obtain ⟨phase, name⟩ := first.held isOver
    have isOver' : c'.loop.isOver = true := by simpa [PollLoop.isOver, phase] using isOver
    obtain ⟨phase', name'⟩ := second.held isOver'
    exact ⟨phase'.trans phase, name'.trans name⟩

theorem later_stop (c : Course) : Later c c.stop := ⟨List.prefix_append .., fun _ => ⟨rfl, rfl⟩⟩

theorem later_drop (c : Course) : Later c c.drop := ⟨List.prefix_append .., fun _ => ⟨rfl, rfl⟩⟩

theorem later_turn {l : PollLoop} {first : List Happening} (alive : c.loop.isOver = false) :
    Later c (c.turn l first) :=
  ⟨⟨first ++ l.sequel, by simp [turn]⟩, fun isOver => by simp [alive] at isOver⟩

theorem Move.later (move : Move now c e c') : Later c c' := by
  cases move with
  | wake idle alive => exact later_turn alive
  | finish r busy => exact later_turn (PollLoop.isOver_of_inStep busy)
  | panic busy => exact later_turn (PollLoop.isOver_of_inStep busy)
  | stop kept => exact later_stop c
  | drop had => exact later_drop c
  | await kept => exact ⟨(later_stop c).past, (later_stop c).held⟩
  | «return» awaited told => exact ⟨List.prefix_append .., fun _ => ⟨rfl, rfl⟩⟩

/-- What a turn comes to calls nothing off. -/
theorem not_calledOff_turn {l : PollLoop} {first : List Happening} (free : ¬ CalledOff c.past)
    (free' : ¬ CalledOff first) : ¬ CalledOff (c.turn l first).past := by
  have sequel : ¬ CalledOff l.sequel := by
    unfold PollLoop.sequel
    split <;> simp [CalledOff]
  simp only [CalledOff, not_or] at free free' sequel
  simp [CalledOff, turn, free, free', sequel]

/-- A loop that does not run was called off or has panicked. -/
theorem Sound.of_not_running {name : String} (h : Sound name c) (out : c.loop.isRunning = false) :
    CalledOff c.past ∨ .ended .panic ∈ c.past := by
  cases isOver : c.loop.isOver with
  | false =>
    have stopped : c.loop.stopped = true := by simpa [PollLoop.isRunning, isOver] using out
    exact .inl (h.calledOff.mp (by simp [PollLoop.mustEnd, stopped]))
  | true =>
    obtain ⟨front, back, past⟩ := List.append_of_mem (h.quit.mp isOver)
    have early : front ⊆ c.past := past ▸ List.subset_append_left front _
    have fits : Happening.quit.Fits front := h.orderly front .quit ⟨back, by simp [past]⟩
    rcases fits.2.2 with off | panicked
    · exact .inl (off.imp (fun mem => early mem) fun mem => early mem)
    · exact .inr (early panicked)

theorem calledOff_stop (c : Course) : CalledOff c.stop.past := .inl (by simp [stop])

theorem calledOff_drop (c : Course) : CalledOff c.drop.past := .inr (by simp [drop])

theorem Later.calledOff (later : Later c c') (off : CalledOff c.past) : CalledOff c'.past :=
  off.imp (fun mem => later.past.subset mem) (fun mem => later.past.subset mem)

/-- Once a loop was called off, none of its steps begins. -/
theorem Later.no_begin {name : String} (later : Later c c') (off : CalledOff c.past)
    (sound : Sound name c') : ∃ more, c'.past = c.past ++ more ∧ .began ∉ more := by
  obtain ⟨more, past⟩ := later.past
  refine ⟨more, past.symm, fun mem => ?_⟩
  obtain ⟨front, back, rfl⟩ := List.append_of_mem mem
  have fits : Happening.began.Fits (c.past ++ front) :=
    sound.orderly (c.past ++ front) .began ⟨back, by simpa using past⟩
  exact fits.2.1 (off.imp (List.mem_append_left _) (List.mem_append_left _))

end Course

/-- What a service watches. -/
inductive Watched where
  | records
  | bundles

/-- The loop over what a service watches, as it is started. -/
def Config.course (c : Config) : Watched → Course
  | .records => .start Memory.ofRecords.name (c.records.intervalMs * Clock.millisecond)
  | .bundles => .start (Memory.bundles c.bundles {}).name (c.bundles.intervalMs * Clock.millisecond)

namespace Config

variable {c : Config} {w : Watched}

theorem course_eq_start : ∃ name period, c.course w = .start name period := by
  cases w <;> exact ⟨_, _, rfl⟩

theorem not_calledOff_course : ¬ CalledOff (c.course w).past := by
  cases w <;> simp [course, Course.start, CalledOff]

end Config

/-- A service with acceptable settings in a process with any number of loops. Each of them may poll
something that the service watches. -/
structure Premises where
  config : Config
  valid : config.validate = .ok ()
  polls : Nat → Option Watched

theorem Premises.sound_course (pr : Premises) (w : Watched) :
    ∃ name, (pr.config.course w).Sound name := by
  obtain ⟨records, bundles⟩ := Config.intervals_pos pr.valid
  have ms : 0 < Clock.millisecond := by decide
  cases w with
  | records => exact ⟨_, .start (Nat.mul_pos records ms)⟩
  | bundles => exact ⟨_, .start (Nat.mul_pos bundles ms)⟩

/-- How far a service has come. -/
inductive Serving.Stage where
  | «open»
  /-- It shuts down: its loops have been told to stop and are waited for. -/
  | closing
  /-- It has shut down, and this is what its owner was told. -/
  | closed (r : Except Failure Unit)
  | dropped

/-- A service and the loops of its process. -/
structure Serving where
  now : Nat := 0
  courses : Nat → Course
  /-- The loops of which the service has the handles: those that it has started last. -/
  own : List Nat := []
  /-- All loops that the service has started, in order. -/
  started : List Nat := []
  stage : Serving.Stage := .open

namespace Serving

variable (s : Serving)

/-- The loops of the service. -/
def loops : List PollLoop := s.own.map fun n => (s.courses n).loop

/-- Something is done to a loop. -/
def put (n : Nat) (c : Course) : Serving := { s with courses := Function.update s.courses n c }

/-- The same is done to all loops of the service. -/
def each (f : Course → Course) : Serving :=
  { s with courses := fun n => if n ∈ s.own then f (s.courses n) else s.courses n }

/-- Whether the service was not started and no loop has begun. -/
def Fresh : Prop :=
  s.own = [] ∧ s.started = [] ∧ s.stage = .open ∧ ∀ n, ∃ name period, s.courses n = .start name period

inductive Event where
  | passed
  | moved (n : Nat) (e : Course.Event)
  | started (records bundles : Nat)
  | shutDown
  | returned (r : Except Failure Unit)
  | dropped

/-- Whether a move is one of the task of a loop. -/
def ofTask : Course.Event → Prop
  | .woke => True
  | .finished _ => True
  | _ => False

/-- The steps of a service and of all loops. Whether its own loops move is up to their tasks; the
service has their handles. -/
inductive Step (pr : Premises) : Serving → Event → Serving → Prop where
  | pass {s : Serving} : Step pr s .passed { s with now := s.now + 1 }
  | move {s : Serving} {n : Nat} {e : Course.Event} {c : Course} (mine : n ∈ s.own → ofTask e)
      (move : Course.Move s.now (s.courses n) e c) : Step pr s (.moved n e) (s.put n c)
  /-- The service starts two loops and drops the handles that it had, unless its loops are running. -/
  | start {s : Serving} {a b : Nat} (isOpen : s.stage = .open)
      (idle : PollLoop.allRunning s.loops = false) (new : a ∉ s.own ∧ b ∉ s.own)
      (records : pr.polls a = some .records) (bundles : pr.polls b = some .bundles)
      (fresh : s.courses a = pr.config.course .records ∧ s.courses b = pr.config.course .bundles) :
      Step pr s (.started a b) { s.each Course.drop with own := [a, b], started := s.started ++ [a, b] }
  /-- The service tells its loops to stop, and waits for them. -/
  | shutDown {s : Serving} (isOpen : s.stage = .open) :
      Step pr s .shutDown { s.each Course.stop with stage := .closing }
  | return {s : Serving} {r : Except Failure Unit} (closing : s.stage = .closing)
      (told : PollLoop.joined s.loops = some r) :
      Step pr s (.returned r) { s.each Course.drop with stage := .closed r }
  /-- The service is dropped, also by one who waits no longer for it to shut down. -/
  | drop {s : Serving} (unfinished : s.stage = .open ∨ s.stage = .closing) :
      Step pr s .dropped { s.each Course.drop with stage := .dropped }

variable {pr : Premises} {s s' : Serving}

/-- What holds between any two steps. -/
structure Sound (pr : Premises) (s : Serving) : Prop where
  own : s.own = [] ∨
    ∃ a b, s.own = [a, b] ∧ pr.polls a = some .records ∧ pr.polls b = some .bundles
  /-- If the service has started loops more than once, one of those that it gave up has panicked. -/
  started : s.started = s.own ∨ ∃ earlier, s.started = earlier ++ s.own ∧ s.own ≠ [] ∧
    ∃ n ∈ earlier, .ended .panic ∈ (s.courses n).past
  sound : ∀ n ∈ s.started, ∃ name, (s.courses n).Sound name
  /-- Its loops are called off when it gives them up and when it shuts down or is dropped. -/
  off : ∀ n ∈ s.started, (s.stage = .open → n ∉ s.own) → CalledOff (s.courses n).past
  going : s.stage = .open → ∀ n ∈ s.own, ¬ CalledOff (s.courses n).past
  told : ∀ r, s.stage = .closed r → PollLoop.joined s.loops = some r

theorem Sound.of_fresh (fresh : s.Fresh) : Sound pr s where
  own := .inl fresh.1
  started := .inl (fresh.2.1.trans fresh.1.symm)
  sound := by simp [fresh.2.1]
  off := by simp [fresh.2.1]
  going := by simp [fresh.1]
  told r closed := by simp [fresh.2.2.1] at closed

theorem Sound.suffix (h : Sound pr s) : s.own <:+ s.started := by
  rcases h.started with once | ⟨earlier, started, -⟩
  · exact once ▸ List.suffix_refl _
  · exact ⟨earlier, started.symm⟩

theorem each_of_not_mem {f : Course → Course} {n : Nat} (other : n ∉ s.own) :
    (s.each f).courses n = s.courses n := by simp [each, other]

/-- The loops of the service are changed, and all others stay as they are. -/
theorem each_cases (s : Serving) (f : Course → Course) (n : Nat) :
    (n ∈ s.own ∧ (s.each f).courses n = f (s.courses n)) ∨
      (n ∉ s.own ∧ (s.each f).courses n = s.courses n) := by
  by_cases mine : n ∈ s.own
  · exact .inl ⟨mine, by simp [each, mine]⟩
  · exact .inr ⟨mine, each_of_not_mem mine⟩

theorem later_each {f : Course → Course} (later : ∀ c, Course.Later c (f c)) (n : Nat) :
    Course.Later (s.courses n) ((s.each f).courses n) := by
  rcases s.each_cases f n with ⟨-, here⟩ | ⟨-, here⟩
  · exact here ▸ later _
  · exact here ▸ .refl _

/-- What has happened to a loop has happened, and a loop that is over is left alone. -/
theorem Step.later {e : Event} (step : Step pr s e s') (n : Nat) :
    Course.Later (s.courses n) (s'.courses n) := by
  cases step with
  | pass => exact .refl _
  | @move m e c mine move =>
    by_cases same : n = m
    · subst same
      simpa [put] using move.later
    · simpa [put, same] using Course.Later.refl _
  | start => exact later_each Course.later_drop n
  | shutDown => exact later_each Course.later_stop n
  | «return» => exact later_each Course.later_drop n
  | drop => exact later_each Course.later_drop n

/-- A service that shuts down keeps its loops and starts none. -/
theorem Step.own_eq {e : Event} (step : Step pr s e s') (off : s.stage ≠ .open) :
    s'.own = s.own ∧ s'.started = s.started ∧ s'.stage ≠ .open := by
  cases step with
  | pass => exact ⟨rfl, rfl, off⟩
  | move mine move => exact ⟨rfl, rfl, off⟩
  | start isOpen => exact absurd isOpen off
  | shutDown isOpen => exact absurd isOpen off
  | «return» => exact ⟨rfl, rfl, by simp⟩
  | drop => exact ⟨rfl, rfl, by simp⟩

/-- Later loops of the service still answer for what its owner was told. -/
theorem joined_of_later {r : Except Failure Unit} (own : s'.own = s.own)
    (later : ∀ n, Course.Later (s.courses n) (s'.courses n))
    (told : PollLoop.joined s.loops = some r) : PollLoop.joined s'.loops = some r := by
  rw [loops, own]
  exact PollLoop.joined_map_of_held (fun n _ isOver => (later n).held isOver) told

/-- Whatever becomes of the loops, one that has panicked has panicked. -/
theorem Sound.started_of_later (h : Sound pr s) {courses : Nat → Course}
    (later : ∀ n, Course.Later (s.courses n) (courses n)) :
    s.started = s.own ∨ ∃ earlier, s.started = earlier ++ s.own ∧ s.own ≠ [] ∧
      ∃ n ∈ earlier, .ended .panic ∈ (courses n).past := by
  rcases h.started with once | ⟨earlier, started, had, n, mem, panicked⟩
  · exact .inl once
  · exact .inr ⟨earlier, started, had, n, mem, (later n).past.subset panicked⟩

/-- The service does the same to all of its loops, which keeps them sound. -/
theorem Sound.sound_each (h : Sound pr s) {f : Course → Course}
    (kept : ∀ {name c}, Course.Sound name c → Course.Sound name (f c)) {n : Nat} (mem : n ∈ s.started) :
    ∃ name, ((s.each f).courses n).Sound name := by
  rcases s.each_cases f n with ⟨-, here⟩ | ⟨-, here⟩
  · exact here ▸ (h.sound n mem).imp fun name sound => kept sound
  · exact here ▸ h.sound n mem

/-- If that calls them off, all loops that it has started are called off. -/
theorem Sound.off_each (h : Sound pr s) {f : Course → Course} (off : ∀ c, CalledOff (f c).past)
    {n : Nat} (mem : n ∈ s.started) : CalledOff ((s.each f).courses n).past := by
  rcases s.each_cases f n with ⟨-, here⟩ | ⟨other, here⟩
  · exact here ▸ off _
  · exact here ▸ h.off n mem fun _ => other

/-- The service calls all of its loops off. -/
theorem Sound.each (h : Sound pr s) {f : Course → Course} {stage : Stage} (closed : stage ≠ .open)
    (later : ∀ c, Course.Later c (f c)) (off : ∀ c, CalledOff (f c).past)
    (kept : ∀ {name c}, Course.Sound name c → Course.Sound name (f c))
    (told : ∀ r, stage = .closed r → PollLoop.joined s.loops = some r) :
    Sound pr { s.each f with stage } where
  own := h.own
  started := h.started_of_later (later_each later)
  sound _ mem := h.sound_each kept mem
  off _ mem _ := h.off_each off mem
  going isOpen := absurd isOpen closed
  told r closed := joined_of_later (s := s) rfl (later_each later) (told r closed)

/-- A service that has loops which do not all run has one that has panicked, as long as it is open. -/
theorem Sound.exists_panicked (h : Sound pr s) (isOpen : s.stage = .open)
    (idle : PollLoop.allRunning s.loops = false) (had : s.own ≠ []) :
    ∃ n ∈ s.started, .ended .panic ∈ (s.courses n).past := by
  obtain ⟨n, mine, out⟩ : ∃ n ∈ s.own, (s.courses n).loop.isRunning = false := by
    simpa [PollLoop.allRunning, loops, had] using idle
  have mem := h.suffix.subset mine
  obtain ⟨name, sound⟩ := h.sound n mem
  exact ⟨n, mem, (sound.of_not_running out).resolve_left (h.going isOpen n mine)⟩

/-- The service starts two loops, and gives up those that it had. -/
theorem Sound.start (h : Sound pr s) {a b : Nat} (isOpen : s.stage = .open)
    (idle : PollLoop.allRunning s.loops = false) (new : a ∉ s.own ∧ b ∉ s.own)
    (records : pr.polls a = some .records) (bundles : pr.polls b = some .bundles)
    (fresh : s.courses a = pr.config.course .records ∧ s.courses b = pr.config.course .bundles) :
    Sound pr { s.each Course.drop with own := [a, b], started := s.started ++ [a, b] } := by
  have here : (s.each Course.drop).courses a = pr.config.course .records ∧
      (s.each Course.drop).courses b = pr.config.course .bundles :=
    ⟨(each_of_not_mem new.1).trans fresh.1, (each_of_not_mem new.2).trans fresh.2⟩
  refine ⟨.inr ⟨a, b, rfl, records, bundles⟩, ?_, ?_, ?_, ?_, ?_⟩
  · by_cases first : s.own = []
    · rcases h.started with once | ⟨-, -, had, -⟩
      · exact .inl (by simp [once, first])
      · exact absurd first had
    · obtain ⟨n, mem, panicked⟩ := h.exists_panicked isOpen idle first
      exact .inr ⟨s.started, rfl, by simp, n, mem,
        (later_each Course.later_drop n).past.subset panicked⟩
  · intro n mem
    rcases List.mem_append.mp mem with early | mem
    · exact h.sound_each Course.Sound.drop early
    · have mem : n = a ∨ n = b := by simpa using mem
      rcases mem with rfl | rfl
      · exact here.1 ▸ pr.sound_course .records
      · exact here.2 ▸ pr.sound_course .bundles
  · intro n mem given
    rcases List.mem_append.mp mem with early | mem
    · exact h.off_each Course.calledOff_drop early
    · exact absurd mem (given isOpen)
  · intro _ n mem
    have mem : n = a ∨ n = b := by simpa using mem
    rcases mem with rfl | rfl
    · exact here.1 ▸ Config.not_calledOff_course
    · exact here.2 ▸ Config.not_calledOff_course
  · intro r closed
    have closed : s.stage = .closed r := closed
    simp [isOpen] at closed

/-- The task of a loop does not call it off. -/
theorem not_calledOff_of_task {c c' : Course} {now : Nat} {e : Course.Event} (task : ofTask e)
    (move : Course.Move now c e c') (free : ¬ CalledOff c.past) : ¬ CalledOff c'.past := by
  cases move with
  | wake idle alive => exact Course.not_calledOff_turn free (by simp [CalledOff])
  | finish r busy => exact Course.not_calledOff_turn free (by simp [CalledOff])
  | panic busy => exact Course.not_calledOff_turn free (by simp [CalledOff])
  | stop kept => cases task
  | drop had => cases task
  | await kept => cases task
  | «return» awaited told => cases task

/-- A loop moves. -/
theorem Sound.move (h : Sound pr s) {m : Nat} {e : Course.Event} {c : Course}
    (mine : m ∈ s.own → ofTask e) (move : Course.Move s.now (s.courses m) e c)
    (later : ∀ n, Course.Later (s.courses n) ((s.put m c).courses n)) : Sound pr (s.put m c) where
  own := h.own
  started := h.started_of_later later
  sound n mem := by
    obtain ⟨name, sound⟩ := h.sound n mem
    refine ⟨name, ?_⟩
    by_cases same : n = m
    · subst same
      simpa [put] using sound.moved move
    · simpa [put, same] using sound
  off n mem given := (later n).calledOff (h.off n mem given)
  going isOpen n mem := by
    have free := h.going isOpen n mem
    by_cases same : n = m
    · subst same
      simpa [put] using not_calledOff_of_task (mine mem) move free
    · simpa [put, same] using free
  told r closed := joined_of_later (s := s) rfl later (h.told r closed)

theorem Sound.step (h : Sound pr s) {e : Event} (step : Step pr s e s') : Sound pr s' := by
  have later := step.later
  cases step with
  | pass => exact ⟨h.own, h.started, h.sound, h.off, h.going, h.told⟩
  | move mine move => exact h.move mine move later
  | start isOpen idle new records bundles fresh => exact h.start isOpen idle new records bundles fresh
  | shutDown isOpen =>
    exact h.each (by simp) Course.later_stop Course.calledOff_stop Course.Sound.stop (by simp)
  | «return» closing told =>
    refine h.each (by simp) Course.later_drop Course.calledOff_drop Course.Sound.drop ?_
    rintro r ⟨⟩
    exact told
  | drop unfinished =>
    exact h.each (by simp) Course.later_drop Course.calledOff_drop Course.Sound.drop (by simp)

theorem Sound.run (h : Sound pr s) (run : Run (Step pr) s s') : Sound pr s' :=
  run.keeps (fun _ _ _ h step => h.step step) h

/-- What a service and its loops have come to once it has begun to shut down. -/
theorem later_of_run (off : s.stage ≠ .open) (run : Run (Step pr) s s') :
    s'.started = s.started ∧ s'.stage ≠ .open ∧ ∀ n, Course.Later (s.courses n) (s'.courses n) := by
  induction run with
  | refl => exact ⟨rfl, off, fun n => .refl _⟩
  | tail _ step ih =>
    obtain ⟨e, step⟩ := step
    obtain ⟨started, off, later⟩ := ih
    obtain ⟨-, started', off'⟩ := step.own_eq off
    exact ⟨started'.trans started, off', fun n => (later n).trans (step.later n)⟩

/-- No step of a loop that is over is in flight. -/
theorem Sound.idle (h : Sound pr s) {n : Nat} (mem : n ∈ s.started)
    (isOver : (s.courses n).loop.isOver = true) : InFlight 0 (s.courses n).past := by
  obtain ⟨name, sound⟩ := h.sound n mem
  simpa [PollLoop.inStep_of_isOver isOver] using sound.inFlight

/-- When the owner is told that all is well, the loops of the service have ended as they were told. -/
theorem Sound.of_ok (h : Sound pr s) (closed : s.stage = .closed (.ok ())) {n : Nat} (mem : n ∈ s.own) :
    InFlight 0 (s.courses n).past ∧ .ended .panic ∉ (s.courses n).past := by
  have ended := PollLoop.joined_eq_ok_iff.mp (h.told _ closed) _ (List.mem_map_of_mem mem)
  have mem := h.suffix.subset mem
  obtain ⟨name, c⟩ := h.sound n mem
  refine ⟨h.idle mem (by simp [PollLoop.isOver, ended]), fun panicked => ?_⟩
  simp [c.died.mpr panicked] at ended

/-- When the owner is told of a failure, a loop of the service has panicked. Waiting in order stops
there: nothing is known of the loops behind it. -/
theorem Sound.of_error (h : Sound pr s) {f : Failure} (closed : s.stage = .closed (.error f)) :
    ∃ first n rest, s.own = first ++ n :: rest ∧ .ended .panic ∈ (s.courses n).past ∧
      ∀ m ∈ first ++ [n], InFlight 0 (s.courses m).past := by
  obtain ⟨first, n, rest, own, ended, died⟩ := PollLoop.joined_map_eq_error (h.told _ closed)
  have mine : ∀ m ∈ first ++ [n], m ∈ s.started := fun m among => by
    refine h.suffix.subset ?_
    rw [own, List.append_cons]
    exact List.mem_append_left _ among
  obtain ⟨name, c⟩ := h.sound n (mine n (by simp))
  refine ⟨first, n, rest, own, c.died.mp died, fun m among => h.idle (mine m among) ?_⟩
  rcases List.mem_append.mp among with early | here
  · simp [PollLoop.isOver, ended m early]
  · obtain rfl : m = n := by simpa using here
    simp [PollLoop.isOver, died]

/-- As long as no loop has panicked but the one that was started last, the service has started loops
only once, and its owner has waited for all of them. -/
theorem Sound.all_idle (h : Sound pr s) {r : Except Failure Unit} (closed : s.stage = .closed r)
    (alive : ∀ n ∈ s.started.dropLast, .ended .panic ∉ (s.courses n).past) {n : Nat}
    (mem : n ∈ s.started) : InFlight 0 (s.courses n).past := by
  have once : s.started = s.own := by
    refine h.started.resolve_right ?_
    rintro ⟨earlier, started, had, m, early, panicked⟩
    refine alive m ?_ panicked
    rw [started, List.dropLast_append_of_ne_nil had]
    exact List.mem_append_left _ early
  cases r with
  | ok u => exact (h.of_ok closed (once ▸ mem)).1
  | error f =>
    obtain ⟨first, m, rest, own, panicked, idle⟩ := h.of_error closed
    cases rest with
    | nil => exact idle n (own ▸ once ▸ mem)
    | cons later rest =>
      refine absurd panicked (alive m ?_)
      rw [once, own, List.dropLast_append_of_ne_nil (by simp)]
      simp

/-- Once a service has begun to shut down, none of the loops that it has ever started begins a step.
When its owner is told the outcome, whichever it is, no step of any of them is in flight, unless one of
them has panicked that was not the last to be started. Of its own two loops there is more to say: if
all is well, neither is in a step and neither has panicked, and otherwise one of them has, and no step
of that one or of one before it is in flight. -/
theorem shutDown_ends {s₀ : Serving} (fresh : s₀.Fresh) (before : Run (Step pr) s₀ s)
    (shut : s.stage ≠ .open) (after : Run (Step pr) s s') :
    (s.own = [] ∨ ∃ a b, s.own = [a, b] ∧ pr.polls a = some .records ∧ pr.polls b = some .bundles) ∧
    s.own <:+ s.started ∧
    (∀ n ∈ s.started, ∃ more, (s'.courses n).past = (s.courses n).past ++ more ∧ .began ∉ more) ∧
    (∀ r, s.stage = .closed r → (∀ n ∈ s.started.dropLast, .ended .panic ∉ (s.courses n).past) →
      ∀ n ∈ s.started, InFlight 0 (s.courses n).past) ∧
    (s.stage = .closed (.ok ()) →
      ∀ n ∈ s.own, InFlight 0 (s.courses n).past ∧ .ended .panic ∉ (s.courses n).past) ∧
    (∀ f, s.stage = .closed (.error f) →
      ∃ first n rest, s.own = first ++ n :: rest ∧ .ended .panic ∈ (s.courses n).past ∧
        ∀ m ∈ first ++ [n], InFlight 0 (s.courses m).past) := by
  have sound := (Sound.of_fresh fresh).run before
  have sound' := sound.run after
  obtain ⟨started, -, later⟩ := later_of_run shut after
  refine ⟨sound.own, sound.suffix, fun n mem => ?_, fun r closed alive n mem => ?_,
    fun closed n mem => sound.of_ok closed mem, fun f closed => sound.of_error closed⟩
  · obtain ⟨name, c'⟩ := sound'.sound n (started ▸ mem)
    exact (later n).no_begin (sound.off n mem fun isOpen => absurd isOpen shut) c'
  · exact sound.all_idle closed alive mem

/-- A process with a service over the namespace `ns`, in which every loop polls something that the
service watches. -/
def estate : Premises where
  config := { allocation := { host := "h", staticPrefix := some "ns" } }
  valid := by rfl
  polls n := if n % 2 = 0 then some .records else some .bundles

/-- The loops of that process, before any of them has begun. -/
def outset : Serving where
  courses n := estate.config.course (if n % 2 = 0 then .records else .bundles)

theorem fresh_outset : outset.Fresh := ⟨rfl, rfl, rfl, fun _ => Config.course_eq_start⟩

/-- The service has started its two loops, and both are in their first step. -/
def underway : Serving :=
  let s := { outset with own := [0, 1], started := [0, 1] }
  let s := s.put 0 ((s.courses 0).turn ((s.courses 0).loop.resume 0) [])
  s.put 1 ((s.courses 1).turn ((s.courses 1).loop.resume 0) [])

theorem run_underway : Run (Step estate) outset underway := by
  have start : Run (Step estate) outset _ :=
    .single (.start (a := 0) (b := 1) rfl rfl (by decide) rfl rfl ⟨rfl, rfl⟩)
  have wake := start.tail (.move (n := 0) (e := .woke) (fun _ => trivial) (.wake rfl rfl))
  exact wake.tail (.move (n := 1) (e := .woke) (fun _ => trivial) (.wake rfl rfl))

/-- The loop that is waited for last has panicked, and the other one is in a step, when the service
shuts down. -/
theorem shutDown_ends_of_step_in_flight : ∃ s f, Run (Step estate) outset s ∧
    s.stage = .closed (.error f) ∧ s.started = [0, 1] ∧ .ended .panic ∈ (s.courses 1).past ∧
    ∀ n ∈ s.started, InFlight 0 (s.courses n).past := by
  have panic := run_underway.tail
    (.move (n := 1) (e := .finished _) (fun _ => trivial) (.panic rfl))
  have finish := (panic.tail (.shutDown rfl)).tail
    (.move (n := 0) (e := .finished _) (fun _ => trivial) (.finish (.ok ()) rfl))
  have closed := finish.tail (.return rfl rfl)
  refine ⟨_, _, closed, rfl, rfl, .tail _ (.head _), ?_⟩
  refine (shutDown_ends fresh_outset closed (by simp) (.refl _)).2.2.2.1 _ rfl fun n early => ?_
  have first : n ∈ [0] := early
  obtain rfl : n = 0 := by simpa using first
  show Happening.ended .panic ∉ [.began, .stopped, .ended (.result (.ok ())), .quit, .dropped]
  simp

/-- A loop that comes behind one that has died is not waited for: the owner is told of the failure
while a step over the bundles is in flight. -/
theorem bundles_step_outlives_shutDown : ∃ s f, Run (Step estate) outset s ∧
    s.stage = .closed (.error f) ∧ s.started = [0, 1] ∧ .ended .panic ∈ (s.courses 0).past ∧
    estate.polls 1 = some .bundles ∧ InFlight 1 (s.courses 1).past := by
  have panic := run_underway.tail
    (.move (n := 0) (e := .finished _) (fun _ => trivial) (.panic rfl))
  have closed := (panic.tail (.shutDown rfl)).tail (.return rfl rfl)
  exact ⟨_, _, closed, rfl, rfl, .tail _ (.head _), rfl, rfl⟩

/-- Nor is a loop that the service gave up when it started loops anew: the owner is told that all is
well while a step over the records is in flight. -/
theorem given_up_step_outlives_shutDown : ∃ s, Run (Step estate) outset s ∧
    s.stage = .closed (.ok ()) ∧ s.started = [0, 1, 2, 3] ∧ estate.polls 0 = some .records ∧
    InFlight 1 (s.courses 0).past := by
  have panic := run_underway.tail
    (.move (n := 1) (e := .finished _) (fun _ => trivial) (.panic rfl))
  have restart := panic.tail (.start (a := 2) (b := 3) rfl rfl (by decide) rfl rfl ⟨rfl, rfl⟩)
  have shut := restart.tail (.shutDown rfl)
  have wake := shut.tail (.move (n := 2) (e := .woke) (fun _ => trivial) (.wake rfl rfl))
  have wake' := wake.tail (.move (n := 3) (e := .woke) (fun _ => trivial) (.wake rfl rfl))
  have closed := wake'.tail (.return (r := .ok ()) rfl rfl)
  exact ⟨_, closed, rfl, rfl, rfl, rfl⟩

/-- A service leaves the loops of others alone, also when it has shut down and whatever they poll: each
can go on as it would by itself. -/
theorem run_other {n : Nat} (other : n ∉ s.own) {later : Nat × Course}
    (run : Run Course.Step (s.now, s.courses n) later) :
    Run (Step pr) s { s.put n later.2 with now := later.1 } := by
  induction run with
  | refl =>
    simp only [put, Function.update_eq_self]
    exact .refl s
  | @tail middle later _ step ih =>
    obtain ⟨e, step⟩ := step
    cases step with
    | pass => exact ih.tail .pass
    | @move now c c' e move =>
      have step : Step pr { s.put n c with now } _ _ :=
        .move (n := n) (fun mine => absurd mine other) (by simpa [put] using move)
      simpa [put] using ih.tail step

end Serving
end CertWatch
