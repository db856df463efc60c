import CertWatch.Proofs.Loop.Course

/-!
# The discipline of a loop

Everything that happens to a loop fits what has happened before: a step begins only if none is in
flight and nobody has stopped the loop or dropped its handle, the task is over only for one of three
reasons and between two steps, and whoever waits for it is told afterwards.
-/

namespace CertWatch
set_option autoImplicit false

namespace Happening

def isBegan : Happening → Bool
  | began => true
  | _ => false

def isEnded : Happening → Bool
  | ended _ => true
  | _ => false

/-- What is written to the log. -/
def notice? : Happening → Option Notice
  | noted n => some n
  | _ => none

/-- What has to be written to the log of a loop with a name: a warning for a step that failed, unless
the failure is a cancellation. -/
def warning? (name : String) : Happening → Option Notice
  | ended (.result (.error f)) =>
    if f.isCancellation then none
    else some (.warning s!"{name} poll step failed: {f.message} (cause: {f.rootMessage})")
  | _ => none

end Happening

open Happening

variable {past before : List Happening} {name : String} {period : Nat}

/-- How many steps have begun and not ended. -/
def InFlight (n : Nat) (past : List Happening) : Prop :=
  past.countP isBegan = past.countP isEnded + n

/-- Whether the loop has been told to stop or has lost its handle. -/
def CalledOff (past : List Happening) : Prop := .stopped ∈ past ∨ .dropped ∈ past

namespace Happening

/-- Whether something fits what has happened before. -/
def Fits (before : List Happening) : Happening → Prop
  | began => InFlight 0 before ∧ ¬ CalledOff before ∧ .quit ∉ before
  | ended _ => InFlight 1 before
  | quit => InFlight 0 before ∧ .quit ∉ before ∧ (CalledOff before ∨ .ended .panic ∈ before)
  | returned r => InFlight 0 before ∧ .quit ∈ before ∧ (r = .ok () ↔ .ended .panic ∉ before)
  | _ => True

end Happening

/-- Whether everything fits what has happened before it. -/
def Orderly (past : List Happening) : Prop :=
  ∀ before h, before ++ [h] <+: past → h.Fits before

theorem Orderly.nil : Orderly [] := fun before h isPrefix => by
  have := isPrefix.length_le
  simp at this

theorem Orderly.snoc {h : Happening} (orderly : Orderly past) (fits : h.Fits past) :
    Orderly (past ++ [h]) := by
  intro before h' isPrefix
  rcases List.prefix_concat_iff.mp isPrefix with same | earlier
  · obtain ⟨rfl, same⟩ := List.append_inj' same rfl
    obtain rfl : h' = h := by simpa using same
    exact fits
  · exact orderly before h' earlier

/-- Lines of the log fit anywhere. -/
theorem Orderly.noted (orderly : Orderly past) (ns : List Notice) :
    Orderly (past ++ ns.map Happening.noted) := by
  induction ns generalizing past with
  | nil => simpa using orderly
  | cons n ns ih =>
    have := ih (orderly.snoc (h := .noted n) trivial)
    simpa [List.append_assoc] using this

theorem inFlight_noted (n : Nat) (ns : List Notice) :
    InFlight n (past ++ ns.map Happening.noted) ↔ InFlight n past := by
  have began : (ns.map Happening.noted).countP isBegan = 0 := by
    simp [List.countP_eq_zero, isBegan]
  have ended : (ns.map Happening.noted).countP isEnded = 0 := by
    simp [List.countP_eq_zero, isEnded]
  simp only [InFlight, List.countP_append, began, ended, Nat.add_zero]

theorem filterMap_noted (ns : List Notice) :
    (past ++ ns.map Happening.noted).filterMap notice? = past.filterMap notice? ++ ns := by
  have all : (ns.map Happening.noted).filterMap notice? = ns := by
    induction ns with
    | nil => rfl
    | cons n ns ih => simpa [notice?] using ih
  rw [List.filterMap_append, all]

theorem filterMap_noted_warning? (ns : List Notice) :
    (past ++ ns.map Happening.noted).filterMap (warning? name) = past.filterMap (warning? name) := by
  have none : (ns.map Happening.noted).filterMap (warning? name) = [] := by
    simp [List.filterMap_eq_nil_iff, warning?]
  rw [List.filterMap_append, none, List.append_nil]

namespace PollLoop

/-- The lines about the outcome of a step are those that have to be written. -/
theorem notices_eq_warning? (l : PollLoop) (r : Except Failure Unit) :
    l.notices r = (warning? l.name (.ended (.result r))).toList := by
  cases r with
  | ok a => rfl
  | error f =>
    by_cases cancelled : f.isCancellation = true <;> simp [notices, warning?, cancelled]

end PollLoop

namespace Course

/-- What holds of a loop with a name, in view of what has happened. -/
structure Sound (name : String) (c : Course) : Prop where
  named : c.loop.name = name
  ticks : 0 < c.loop.period
  orderly : Orderly c.past
  calledOff : c.loop.mustEnd = true ↔ CalledOff c.past
  /-- One step is in flight if the loop is in a step, and none otherwise. -/
  inFlight : InFlight c.loop.inStep.toNat c.past
  quit : c.loop.isOver = true ↔ .quit ∈ c.past
  died : c.loop.phase = .died ↔ .ended .panic ∈ c.past
  /-- The log has a warning for each step that failed without being called off, and nothing else. -/
  noted : c.past.filterMap notice? = c.past.filterMap (warning? name)

/-- How a loop goes on from where it is, at every instant. -/
structure Steady (c : Course) : Prop where
  /-- A step that has begun is left alone until it ends by itself. -/
  held : ∀ now e c', c.loop.inStep = true → Move now c e c' →
    c'.loop.phase = c.loop.phase ∨ ∃ how rest, c'.past = c.past ++ .ended how :: rest
  /-- The end of a step with a result, whichever, ends the loop just if it was called off. -/
  after : ∀ now, c.loop.inStep = true → ((c.loop.finishStep now).isOver = true ↔ CalledOff c.past)
  /-- So does a turn between two steps. -/
  between : ∀ now, c.loop.inStep = false → c.loop.isOver = false →
    ((c.loop.resume now).isOver = true ↔ CalledOff c.past)
  /-- Otherwise that turn begins a step, unless the tick is still to come. -/
  onward : ∀ now, c.loop.inStep = false → c.loop.isOver = false → ¬ CalledOff c.past →
    (c.loop.resume now).inStep = true ∨
      ∃ t, (c.loop.resume now).phase = .waiting t ∧ now < Clock.ring t.due

variable {c c' : Course} {now : Nat}

theorem Sound.start (ticks : 0 < period) : Sound name (start name period) where
  named := rfl
  ticks := ticks
  orderly := .nil
  calledOff := by simp [Course.start, PollLoop.mustEnd, CalledOff]
  inFlight := by simp [Course.start, PollLoop.inStep, InFlight]
  quit := by simp [Course.start, PollLoop.isOver]
  died := by simp [Course.start]
  noted := rfl

/-- The loop ends as it was told. -/
theorem Sound.ends (h : Sound name c) (idle : InFlight 0 c.past) (going : .quit ∉ c.past)
    (living : .ended .panic ∉ c.past) (must : c.loop.mustEnd = true) :
    Sound name (c.turn { c.loop with phase := .ended } []) := by
  have fits : Happening.quit.Fits c.past := ⟨idle, going, .inl (h.calledOff.mp must)⟩
  exact {
    named := h.named
    ticks := h.ticks
    orderly := by simpa [turn, PollLoop.sequel] using h.orderly.snoc fits
    calledOff := by simpa [turn, PollLoop.sequel, CalledOff, PollLoop.mustEnd] using h.calledOff
    inFlight := by
      simpa [turn, PollLoop.sequel, PollLoop.inStep, InFlight, isBegan, isEnded] using idle
    quit := by simp [turn, PollLoop.sequel, PollLoop.isOver]
    died := by simp [turn, PollLoop.sequel, living]
    noted := by
      simpa [turn, PollLoop.sequel, notice?, warning?, List.filterMap_cons] using h.noted }

/-- The loop begins a step. -/
theorem Sound.begins (h : Sound name c) (idle : InFlight 0 c.past) (going : .quit ∉ c.past)
    (living : .ended .panic ∉ c.past) (free : c.loop.mustEnd = false) (t : Ticker) :
    Sound name (c.turn { c.loop with phase := .stepping t } []) := by
  have fits : Happening.began.Fits c.past :=
    ⟨idle, fun off => by simp [h.calledOff.mpr off] at free, going⟩
  exact {
    named := h.named
    ticks := h.ticks
    orderly := by simpa [turn, PollLoop.sequel] using h.orderly.snoc fits
    calledOff := by simpa [turn, PollLoop.sequel, CalledOff, PollLoop.mustEnd] using h.calledOff
    inFlight := by
      simpa [turn, PollLoop.sequel, PollLoop.inStep, InFlight, isBegan, isEnded] using idle
    quit := by simp [turn, PollLoop.sequel, PollLoop.isOver, going]
    died := by simp [turn, PollLoop.sequel, living]
    noted := by
      simpa [turn, PollLoop.sequel, notice?, warning?, List.filterMap_cons] using h.noted }

/-- The loop waits for its tick. -/
theorem Sound.waits (h : Sound name c) (idle : InFlight 0 c.past) (going : .quit ∉ c.past)
    (living : .ended .panic ∉ c.past) (t : Ticker) :
    Sound name (c.turn { c.loop with phase := .waiting t } []) where
  named := h.named
  ticks := h.ticks
  orderly := by simpa [turn, PollLoop.sequel] using h.orderly
  calledOff := by simpa [turn, PollLoop.sequel, PollLoop.mustEnd] using h.calledOff
  inFlight := by simpa [turn, PollLoop.sequel, PollLoop.inStep] using idle
  quit := by simp [turn, PollLoop.sequel, PollLoop.isOver, going]
  died := by simp [turn, PollLoop.sequel, living]
  noted := by simpa [turn, PollLoop.sequel] using h.noted

theorem Sound.not_quit (h : Sound name c) (alive : c.loop.isOver = false) : .quit ∉ c.past :=
  fun quit => by simp [h.quit.mpr quit] at alive

theorem Sound.not_panicked (h : Sound name c) (alive : c.loop.isOver = false) :
    .ended .panic ∉ c.past := fun died => by
  have := h.died.mpr died
  simp [PollLoop.isOver, this] at alive

/-- A loop that considers what to do ends, begins a step or waits, as has to be. -/
theorem Sound.considered (h : Sound name c) (idle : c.loop.inStep = false)
    (alive : c.loop.isOver = false) (t : Ticker) (now : Nat) :
    Sound name (c.turn (c.loop.consider t now) []) := by
  have level : InFlight 0 c.past := by simpa [idle] using h.inFlight
  have going := h.not_quit alive
  have living := h.not_panicked alive
  cases must : c.loop.mustEnd with
  | true =>
    simpa [PollLoop.consider, must] using h.ends level going living must
  | false =>
    by_cases due : Clock.reached now t.due = true
    · simpa [PollLoop.consider, must, due] using h.begins level going living must (t.take now)
    · simpa [PollLoop.consider, must, due] using h.waits level going living t

/-- The step that a loop is in ends with a result: for a moment the loop is between two steps. -/
theorem Sound.closed (h : Sound name c) (busy : c.loop.inStep = true) (r : Except Failure Unit)
    (t : Ticker) :
    Sound name { c with
      loop := { c.loop with phase := .waiting t }
      past := c.past ++ [.ended (.result r)] ++ (c.loop.notices r).map .noted } := by
  have flying : InFlight 1 c.past := by simpa [busy] using h.inFlight
  have alive := PollLoop.isOver_of_inStep busy
  have going := h.not_quit alive
  have living := h.not_panicked alive
  have fits : (Happening.ended (.result r)).Fits c.past := flying
  exact {
    named := h.named
    ticks := h.ticks
    orderly := (h.orderly.snoc fits).noted _
    calledOff := by simpa [CalledOff, PollLoop.mustEnd] using h.calledOff
    inFlight := by
      rw [inFlight_noted]
      simpa [PollLoop.inStep, InFlight, isBegan, isEnded] using flying
    quit := by simp [PollLoop.isOver, going]
    died := by simp [living]
    noted := by
      rw [PollLoop.notices_eq_warning?, h.named, filterMap_noted, filterMap_noted_warning?]
      simp only [List.filterMap_append, h.noted]
      cases w : warning? name (.ended (.result r)) <;> simp [w, notice?] }

/-- The end of a step, and then a turn between two steps, is the turn that ends the step. -/
theorem Sound.finished (h : Sound name c) (busy : c.loop.inStep = true) (r : Except Failure Unit) :
    Sound name (c.turn (c.loop.finishStep now)
      (.ended (.result r) :: (c.loop.notices r).map .noted)) := by
  obtain ⟨t, finish⟩ := PollLoop.finishStep_eq_consider now busy
  have between := (h.closed busy r t).considered rfl rfl t now
  rw [finish]
  simpa only [turn, PollLoop.consider_phase, List.append_assoc, List.append_nil, List.cons_append,
    List.nil_append] using between

/-- The step that a loop is in panics, and the task is over. -/
theorem Sound.panicked (h : Sound name c) (busy : c.loop.inStep = true) :
    Sound name (c.turn c.loop.panic [.ended .panic]) := by
  have flying : InFlight 1 c.past := by simpa [busy] using h.inFlight
  have going := h.not_quit (PollLoop.isOver_of_inStep busy)
  have fits : (Happening.ended .panic).Fits c.past := flying
  have landed : InFlight 0 (c.past ++ [.ended .panic]) := by
    simpa [InFlight, isBegan, isEnded] using flying
  have fits' : Happening.quit.Fits (c.past ++ [.ended .panic]) := by
    refine ⟨landed, ?_, .inr ?_⟩ <;> simp [going]
  rw [PollLoop.panic_of_inStep busy]
  exact {
    named := h.named
    ticks := h.ticks
    orderly := by simpa [turn, PollLoop.sequel] using (h.orderly.snoc fits).snoc fits'
    calledOff := by simpa [turn, PollLoop.sequel, CalledOff, PollLoop.mustEnd] using h.calledOff
    inFlight := by
      simpa [turn, PollLoop.sequel, PollLoop.inStep, InFlight, List.countP_cons, isBegan, isEnded]
        using flying
    quit := by simp [turn, PollLoop.sequel, PollLoop.isOver]
    died := by simp [turn, PollLoop.sequel]
    noted := by
      simpa [turn, PollLoop.sequel, notice?, warning?, List.filterMap_cons] using h.noted }

theorem Sound.stop (h : Sound name c) : Sound name c.stop where
  named := h.named
  ticks := h.ticks
  orderly := h.orderly.snoc (h := .stopped) trivial
  calledOff := by simp [Course.stop, PollLoop.stop, PollLoop.mustEnd, CalledOff]
  inFlight := by
    simpa [Course.stop, InFlight, isBegan, isEnded] using h.inFlight
  quit := by simpa [Course.stop, PollLoop.stop, PollLoop.isOver] using h.quit
  died := by simpa [Course.stop, PollLoop.stop] using h.died
  noted := by simpa [Course.stop, notice?, warning?, List.filterMap_cons] using h.noted

theorem Sound.drop (h : Sound name c) : Sound name c.drop where
  named := h.named
  ticks := h.ticks
  orderly := h.orderly.snoc (h := .dropped) trivial
  calledOff := by simp [Course.drop, PollLoop.orphan, PollLoop.mustEnd, CalledOff]
  inFlight := by
    simpa [Course.drop, InFlight, isBegan, isEnded] using h.inFlight
  quit := by simpa [Course.drop, PollLoop.orphan, PollLoop.isOver] using h.quit
  died := by simpa [Course.drop, PollLoop.orphan] using h.died
  noted := by simpa [Course.drop, notice?, warning?, List.filterMap_cons] using h.noted

/-- One who waits for the end is told after it. -/
theorem Sound.told (h : Sound name c) {r : Except Failure Unit}
    (told : PollLoop.joined [c.loop] = some r) :
    Sound name { c with handle := .gone, past := c.past ++ [.returned r] } := by
  obtain ⟨isOver, answer⟩ := PollLoop.joined_singleton.mp told
  have out := PollLoop.inStep_of_isOver isOver
  have level : InFlight 0 c.past := by simpa [out] using h.inFlight
  have fits : (Happening.returned r).Fits c.past :=
    ⟨level, h.quit.mp isOver, by rw [answer, PollLoop.outcome_eq_ok_iff, ne_eq, h.died]⟩
  exact {
    named := h.named
    ticks := h.ticks
    orderly := h.orderly.snoc fits
    calledOff := by simpa [CalledOff] using h.calledOff
    inFlight := by simpa [InFlight, isBegan, isEnded] using h.inFlight
    quit := by simpa using h.quit
    died := by simpa using h.died
    noted := by simpa [notice?, warning?, List.filterMap_cons] using h.noted }

/-- Every move keeps all this. -/
theorem Sound.moved (h : Sound name c) {e : Event} (move : Move now c e c') : Sound name c' := by
  cases move with
  | wake idle alive =>
    obtain ⟨t, resume⟩ := PollLoop.resume_eq_consider now h.ticks idle alive
    rw [resume]
    exact h.considered idle alive t now
  | finish r busy => exact h.finished busy r
  | panic busy => exact h.panicked busy
  | stop kept => exact h.stop
  | drop had => exact h.drop
  | await kept =>
    exact { h.stop with }
  | «return» awaited told => exact h.told told

theorem Sound.run {since : Nat} (ticks : 0 < period)
    (run : Run Step (since, Course.start name period) (now, c)) : Sound name c := by
  have kept : ∀ s e s', Sound name s.2 → Step s e s' → Sound name s'.2 := by
    intro s e s' h step
    cases step with
    | pass => exact h
    | move move => exact h.moved move
  have sound := Run.keeps kept run (Sound.start ticks)
  exact sound

theorem Sound.steady (h : Sound name c) : Steady c where
  held now e c' busy move := by
    cases move with
    | wake idle alive => simp [idle] at busy
    | finish r busy => exact .inr ⟨.result r, _, by simp only [turn, List.append_assoc]; rfl⟩
    | panic busy => exact .inr ⟨.panic, _, by simp only [turn, List.append_assoc]; rfl⟩
    | stop kept => exact .inl rfl
    | drop had => exact .inl rfl
    | await kept => exact .inl rfl
    | «return» awaited told => exact .inl rfl
  after now busy := by
    obtain ⟨t, finish⟩ := PollLoop.finishStep_eq_consider now busy
    rw [finish, PollLoop.consider_isOver, h.calledOff]
  between now idle alive := by
    obtain ⟨t, resume⟩ := PollLoop.resume_eq_consider now h.ticks idle alive
    rw [resume, PollLoop.consider_isOver, h.calledOff]
  onward now idle alive free := by
    obtain ⟨t, resume⟩ := PollLoop.resume_eq_consider now h.ticks idle alive
    have goes : c.loop.mustEnd = false := Bool.eq_false_iff.mpr fun must => free (h.calledOff.mp must)
    rw [resume]
    exact (PollLoop.consider_inStep_or t now goes).imp_right fun waits => ⟨t, waits⟩

/-- Whatever the steps of a loop come to, however long they take, and whenever it is stopped or its
handle is dropped: its steps never overlap and are left alone, none begins once it was called off, it
ends only then or by a panic, its log has a warning for each failure that is no cancellation, and who
waits for it is told when no step is in flight, with a failure just if it has panicked. -/
theorem disciplined {since : Nat} (ticks : 0 < period)
    (run : Run Step (since, Course.start name period) (now, c)) : Sound name c ∧ Steady c :=
  have sound := Sound.run ticks run
  ⟨sound, sound.steady⟩

/-- A step in which the store fails while somebody already waits for the end of the loop. -/
def outage : Course where
  loop := { name := "records", period := 5, phase := .ended, stopped := true }
  handle := .gone
  past := [.began, .stopped, .ended (.result (.error (.storeUnavailable "down"))),
    .noted (.warning "records poll step failed: Store unavailable: down (cause: Store unavailable: down)"),
    .quit, .returned (.ok ())]

theorem run_outage : Run Step (0, Course.start "records" 5) (1, outage) := by
  have wake : Run Step (0, Course.start "records" 5) _ := .single (.move (.wake rfl rfl))
  have await := wake.tail (.move (.await rfl))
  have wait := await.tail .pass
  have finish := wait.tail (.move (.finish (.error (.storeUnavailable "down")) rfl))
  exact finish.tail (.move (.return (r := .ok ()) rfl rfl))

theorem disciplined_of_outage : Sound "records" outage ∧ Steady outage :=
  disciplined (by decide) run_outage

end Course
end CertWatch
