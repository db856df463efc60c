import CertWatch.Proofs.Allocation.Stages
import CertWatch.Proofs.Lease.Return

/-!
# An allocation gives its lease up

An allocation that was granted the lease goes on to give it up, whatever fails meanwhile: every stage under
the lease leads to the one that releases the guard, and from there the outcome is kept whatever the release
is answered. Here the store answers as it likes, so the failures of readings, writes and checks are all of the
ways in which an allocation can go.
-/

namespace CertWatch
set_option autoImplicit false

namespace Holder

/-- A holder who did nothing itself: what the service did about its attempt, or what its guard came to know. -/
inductive Like : Holder → Holder → Prop where
  | same {t : Holder} : Like t t
  | asking {a : Acquisition} {since : Nat} {done? done?' : Option Bool} :
      Like (asking a since done?) (asking a since done?')
  | has {c c' : Custody} (there : c'.stand = c.stand) : Like (has c) (has c')

end Holder

namespace Tenure

/-- An allocation begins to ask for the lease when its stage says so. -/
def enter (t : Tenure) : Stage → Tenure
  | .asking a _ => t.ask a
  | _ => t

/-- Whether the guard of the holder holds its lease. -/
def held (t : Tenure) : Bool :=
  match t.holder with
  | .has c => c.guard.isHeld t.now
  | _ => false

end Tenure

/-- What is noted when a stage is entered. -/
def Stage.requests : Stage → List Noted
  | asking a _ => [.asked a.attempt]
  | _ => []

/-- An allocation and the holder that asks for the lease in its name. -/
structure Allocating where
  stage : Stage
  tenure : Tenure

namespace Allocating

/-- An allocation begins. -/
def start (c : NamespaceConfig) (now : Nat) (b : Backend) : Allocating := ⟨.start c, .start now b⟩

/-- What an allocation has at hand, with the prefix that it would write. -/
def moment (s : Allocating) (owner : String) (fresh : StoredPrefix) : Stage.Moment :=
  ⟨s.tenure.now, s.tenure.held, owner, fresh⟩

/-- The steps of an allocation. -/
inductive Step (c : NamespaceConfig) (owner : String) : Allocating → List Noted → Allocating → Prop where
  /-- Something happens that is not the allocation's own doing. -/
  | around {s : Allocating} {ds : List Noted} {t : Tenure} (step : Tenure.Step owner s.tenure ds t)
      (aside : s.tenure.holder.Like t.holder) : Step c owner s ds ⟨s.stage, t⟩
  /-- The store answers, with anything. -/
  | hear {s : Allocating} {call : Call} {next : Stage} (wants : s.stage.want c = .answer call)
      (ofStore : call.lessee? = none) (r : Except Failure call.Answer) (fresh : StoredPrefix)
      (after : next = s.stage.answered c (s.moment owner fresh) call r) :
      Step c owner s next.requests ⟨next, s.tenure.enter next⟩
  | judge {s : Allocating} {a : Acquisition} {since : Nat} {done? : Option Bool} (here : s.stage = .asking a since)
      (there : s.tenure.holder = .asking a since done?) (r : Except Failure Bool) (told : Told done? r)
      (fresh : StoredPrefix) :
      Step c owner s (Holder.verdict a s.tenure.now r)
        ⟨Stage.answered c (s.moment owner fresh) (.asking a since) a.attempt r, s.tenure.judge a since r⟩
  | resume {s : Allocating} {a : Acquisition} {next : Nat} (here : s.stage = .pausing a next)
      (there : s.tenure.holder = .pausing a next) (due : Clock.reached s.tenure.now next = true) :
      Step c owner s [.asked a.attempt] ⟨s.stage.resumed s.tenure.now, s.tenure.ask a⟩
  | release {s : Allocating} {o : Except Failure String} {custody : Custody} (here : s.stage = .releasing o)
      (there : s.tenure.holder = .has custody) (kept : custody.stand = .kept) :
      Step c owner s [.parted .released, .asked custody.guard.releaseCall]
        ⟨s.stage, s.tenure.keep [.parted .released, .asked custody.guard.releaseCall] s.tenure.backend
          (custody.release s.tenure.now)⟩
  /-- The release is answered, and the guard is dropped. -/
  | finish {s : Allocating} {o : Except Failure String} {custody : Custody} {since : Nat} {call : Call}
      {done? : Option Unit} (here : s.stage = .releasing o) (there : s.tenure.holder = .has custody)
      (releasing : custody.stand = .releasing since) (before after : List Errand)
      (busy : custody.errands = before ++ .underWay call done? :: after) (r : Except Failure Unit)
      (told : Told done? r) (tasks : Bool) :
      Step c owner s []
        ⟨(Stage.afterRelease o r).1, s.tenure.keep [] s.tenure.backend
          (({ custody with errands := before ++ Errand.closed :: after } : Custody).drop .released since tasks)⟩

end Allocating

/-- Where the holder of an allocation stands at a stage. -/
def Stage.Suits (r : String) (t : Holder) : Stage → Prop
  | reading => t = .absent
  | asking a since => a.resource = r ∧ ∃ done?, t = .asking a since done?
  | pausing a next => a.resource = r ∧ t = .pausing a next
  | rereading => ∃ c, t = .has c ∧ c.guard.resource = r ∧ c.stand = .kept
  | writing _ => ∃ c, t = .has c ∧ c.guard.resource = r ∧ c.stand = .kept
  | releasing _ => ∃ c, t = .has c ∧ c.guard.resource = r ∧ (c.stand = .kept ∨ ∃ since, c.stand = .releasing since)
  | finished _ => t = .absent ∨ t = .failed ∨
      ∃ c since, t = .has c ∧ c.guard.resource = r ∧ c.stand = .gone .released since

namespace Custody

/-- A guard stays one of its lease. -/
theorem renewCall_of_step {now : Nat} {b b' : Backend} {c c' : Custody} {ds : List Noted}
    (step : Step now (b, c) ds (b', c')) : c'.guard.renewCall = c.guard.renewCall := by
  cases step with
  | tick isDue rung => exact c.guard.renewCall_tick now
  | hear asking r told => exact c.guard.renewCall_answered now r
  | _ => rfl

end Custody

namespace Tenure

variable {owner : String} {s s' : Tenure} {ds : List Noted}

theorem resource_of_step {c c' : Custody} (step : Step owner s ds s') (before : s.holder = .has c)
    (after : s'.holder = .has c') : c'.guard.resource = c.guard.resource := by
  cases step with
  | pass =>
    cases before.symm.trans after
    rfl
  | outside other =>
    cases before.symm.trans after
    rfl
  | custody here step =>
    cases here.symm.trans before
    cases after
    exact (Call.renew.inj (Custody.renewCall_of_step step)).1
  | ask here own => cases here.symm.trans before
  | attempt here => cases here.symm.trans before
  | judge here r told => cases here.symm.trans before
  | resume here due => cases here.symm.trans before

end Tenure

namespace Stage

variable {stage : Stage} {r : String} {t t' : Holder}

/-- A holder who did nothing itself stands where it stood. -/
theorem Suits.like (h : stage.Suits r t) (like : t.Like t')
    (terms : ∀ c c', t = .has c → t' = .has c' → c'.guard.resource = c.guard.resource) : stage.Suits r t' := by
  cases like with
  | same => exact h
  | asking =>
    cases stage with
    | asking a since =>
      obtain ⟨resource, done?, here⟩ := h
      cases here
      exact ⟨resource, _, rfl⟩
    | reading => cases h
    | pausing a next => cases h.2
    | rereading => simp [Suits] at h
    | writing fresh => simp [Suits] at h
    | releasing o => simp [Suits] at h
    | finished o => simp [Suits] at h
  | @has c c' there =>
    have resource := terms c c' rfl rfl
    cases stage with
    | reading => cases h
    | asking a since => simp [Suits] at h
    | pausing a next => cases h.2
    | rereading => simpa [Suits, resource, there] using h
    | writing fresh => simpa [Suits, resource, there] using h
    | releasing o => simpa [Suits, resource, there] using h
    | finished o => simpa [Suits, resource, there] using h

/-- After an answer of the store an allocation without the lease asks for it or is finished, and one with the
lease writes or gives the lease up. -/
theorem store_cases {c : NamespaceConfig} (m : Moment) {call : Call} (wants : stage.want c = .answer call)
    (ofStore : call.lessee? = none) (answer : Except Failure call.Answer) :
    stage = .reading ∧ stage.answered c m call answer = .asking (wanted c m.owner m.now) m.now ∨
      (stage = .reading ∧ ∃ o, stage.answered c m call answer = .finished o) ∨
      (stage = .rereading ∨ ∃ fresh, stage = .writing fresh) ∧
        ((∃ fresh, stage.answered c m call answer = .writing fresh) ∨
          ∃ o, stage.answered c m call answer = .releasing o) := by
  cases stage with
  | reading =>
    cases wants
    rcases afterRead_cases c m.owner m.now answer with ⟨-, -, -, asks⟩ | ⟨o, finished, -⟩
    · exact .inl ⟨rfl, asks⟩
    · exact .inr (.inl ⟨rfl, o, finished⟩)
  | rereading =>
    cases wants
    rcases afterReread_cases c m.held m.fresh answer with ⟨-, -, -, writes⟩ | ⟨o, releases, -⟩
    · exact .inr (.inr ⟨.inl rfl, .inl ⟨m.fresh, writes⟩⟩)
    · exact .inr (.inr ⟨.inl rfl, .inr ⟨o, releases⟩⟩)
  | writing fresh =>
    cases wants
    obtain ⟨o, releases, -⟩ := afterWrite_cases c m.held fresh answer
    exact .inr (.inr ⟨.inr ⟨fresh, rfl⟩, .inr ⟨o, releases⟩⟩)
  | asking a since =>
    cases wants
    cases ofStore
  | pausing a next => cases wants
  | releasing o => cases wants
  | finished o => cases wants

/-- After the answer to an attempt the allocation and the holder agree. -/
theorem suits_judged (c : NamespaceConfig) (m : Moment) {a : Acquisition} (resource : a.resource = c.lockResource)
    (since : Nat) (answer : Except Failure Bool) :
    (Stage.answered c m (.asking a since) a.attempt answer).Suits c.lockResource
      (Holder.judged a since m.now answer) := by
  show (afterAttempt a m.now answer).Suits c.lockResource (Holder.judged a since m.now answer)
  unfold afterAttempt Holder.judged
  cases a.judge m.now answer with
  | granted => exact ⟨_, rfl, resource, rfl⟩
  | pause next => exact ⟨resource, rfl⟩
  | failed f => exact .inr (.inl rfl)

end Stage

namespace Allocating

variable {c : NamespaceConfig} {owner : String} {s s' : Allocating} {ds : List Noted} {now : Nat} {b : Backend}

/-- What holds between any two steps. -/
structure Sound (c : NamespaceConfig) (owner : String) (s : Allocating) : Prop where
  suits : s.stage.Suits c.lockResource s.tenure.holder
  tenure : s.tenure.Sound owner

/-- The store answers. -/
theorem Sound.hear (h : s.Sound c owner) {call : Call} (wants : s.stage.want c = .answer call)
    (ofStore : call.lessee? = none) (r : Except Failure call.Answer) (fresh : StoredPrefix) {next : Stage}
    (after : next = s.stage.answered c (s.moment owner fresh) call r) :
    Sound c owner ⟨next, s.tenure.enter next⟩ := by
  have suits := h.suits
  rcases Stage.store_cases (s.moment owner fresh) wants ofStore r with
    ⟨here, asks⟩ | ⟨here, o, finished⟩ | ⟨under, goes⟩
  · rw [here] at suits
    rw [after, asks]
    exact ⟨⟨rfl, none, rfl⟩, h.tenure.step (.ask suits rfl)⟩
  · rw [here] at suits
    rw [after, finished]
    exact ⟨.inl suits, h.tenure⟩
  · obtain ⟨custody, there, resource, kept⟩ :
        ∃ custody, s.tenure.holder = .has custody ∧ custody.guard.resource = c.lockResource ∧ custody.stand = .kept := by
      rcases under with here | ⟨fresh, here⟩
      · exact (here ▸ suits : Stage.rereading.Suits _ _)
      · exact (here ▸ suits : (Stage.writing fresh).Suits _ _)
    rcases goes with ⟨fresh', writes⟩ | ⟨o, releases⟩
    · rw [after, writes]
      exact ⟨⟨custody, there, resource, kept⟩, h.tenure⟩
    · rw [after, releases]
      exact ⟨⟨custody, there, resource, .inl kept⟩, h.tenure⟩

theorem Sound.step (h : s.Sound c owner) (step : Step c owner s ds s') : s'.Sound c owner := by
  cases step with
  | @around _ t step aside =>
    exact ⟨h.suits.like aside fun _ _ => Tenure.resource_of_step step, h.tenure.step step⟩
  | hear wants ofStore r fresh after => exact h.hear wants ofStore r fresh after
  | judge here there r told fresh =>
    have asking := h.suits
    rw [here] at asking
    exact ⟨Stage.suits_judged c (s.moment owner fresh) asking.1 _ r, h.tenure.step (.judge there r told)⟩
  | resume here there due =>
    have pausing := h.suits
    rw [here] at pausing
    refine ⟨?_, h.tenure.step (.resume there due)⟩
    rw [here]
    exact ⟨pausing.1, none, rfl⟩
  | release here there kept =>
    have holds := h.suits
    rw [here] at holds
    obtain ⟨custody, there', resource, -⟩ := holds
    cases there.symm.trans there'
    refine ⟨?_, h.tenure.step (.custody there (.release kept))⟩
    rw [here]
    exact ⟨_, rfl, resource, .inr ⟨_, rfl⟩⟩
  | finish here there releasing before after busy r told tasks =>
    have holds := h.suits
    rw [here] at holds
    obtain ⟨custody, there', resource, -⟩ := holds
    cases there.symm.trans there'
    refine ⟨?_, h.tenure.step (.custody there (.finish releasing before after busy r told tasks))⟩
    exact .inr (.inr ⟨_, _, rfl, resource, rfl⟩)

theorem sound_start (c : NamespaceConfig) (owner : String) (now : Nat) (b : Backend) :
    (start c now b).Sound c owner := by
  refine ⟨?_, Tenure.sound_start owner now b⟩
  show (Stage.start c).Suits c.lockResource .absent
  unfold Stage.start
  split
  · exact .inl rfl
  · rfl

/-- Once an allocation has come to an outcome, it stays with it. -/
theorem outcome_of_step {o : Except Failure String} (h : s.stage.outcome? = some o) (step : Step c owner s ds s') :
    s'.stage.outcome? = some o := by
  cases step with
  | around step aside => exact h
  | hear wants ofStore r fresh after =>
    cases stage : s.stage with
    | releasing o => rw [stage] at wants; cases wants
    | finished o => rw [stage] at wants; cases wants
    | _ => rw [stage] at h; cases h
  | judge here there r told fresh => rw [here] at h; cases h
  | resume here there due => rw [here] at h; cases h
  | release here there kept => exact h
  | finish here there releasing before after busy r told tasks => rw [here] at h; exact h

theorem outcome_of_run {o : Except Failure String} (h : s.stage.outcome? = some o) (run : Run (Step c owner) s s') :
    s'.stage.outcome? = some o := by
  induction run with
  | refl => exact h
  | tail _ step ih =>
    obtain ⟨ds, step⟩ := step
    exact outcome_of_step ih step

theorem Sound.run (h : s.Sound c owner) (run : Run (Step c owner) s s') : s'.Sound c owner :=
  run.keeps (fun _ _ _ h step => h.step step) h

/-- What has been noted when an allocation has returned. -/
theorem Sound.given_back (h : s.Sound c owner) {o : Except Failure String} (here : s.stage = .finished o) :
    (.granted ∉ s.tenure.past → Noted.releases s.tenure.past = []) ∧
      ∀ before after, s.tenure.past = before ++ .granted :: after →
        Noted.releases before = [] ∧ Noted.releases after = [.release c.lockResource owner] := by
  have of_requests : Noted.Requests s.tenure.past → (.granted ∉ s.tenure.past → Noted.releases s.tenure.past = []) ∧
      ∀ before after, s.tenure.past = before ++ .granted :: after →
        Noted.releases before = [] ∧ Noted.releases after = [.release c.lockResource owner] := by
    intro requests
    have notGranted := (Noted.not_mem_of_ne_asked (d := .granted) nofun).1 requests
    exact ⟨fun _ => requests.releases, fun before after split => absurd (by simp [split]) notGranted⟩
  have suits := h.suits
  have sound := h.tenure
  rw [here] at suits
  rw [Tenure.Sound] at sound
  rcases suits with absent | failed | ⟨custody, since, there, resource, gone⟩
  · rw [absent] at sound
    exact of_requests (sound ▸ nofun)
  · rw [failed] at sound
    exact of_requests sound
  · rw [there] at sound
    have sound : custody.Sound owner s.tenure.now s.tenure.backend.leases s.tenure.past := sound
    have call : custody.guard.releaseCall = .release c.lockResource owner := by
      rw [← resource, ← sound.own]
      rfl
    refine ⟨fun notGranted => ?_, fun before after split => call ▸ sound.releases_of_gone gone split⟩
    obtain ⟨requests, renewals, rest, -, -, order, -⟩ :=
      (sound.course.parted_of_stand (congrArg Stand.parted? gone)).order
    exact absurd (by simp [order]) notGranted

/-- **Giving back.** Whichever way a guard comes to its end, it begins no renewal afterwards and one call that
gives its lease up, or none where nothing can be called; a guard that is dropped has a task make this call. Its
lease ends within its length, and at once when the call takes effect. An allocation that returns has given back
every lease it was granted by one call, whatever has failed; and its outcome is the one that it had before it
released its guard. -/
theorem leases_given_back (owner : String) :
    (∀ now b s custody how since, Run (Tenure.Step owner) (Tenure.start now b) s → s.holder = .has custody →
      custody.stand.parted? = some (how, since) → custody.guard.owner = owner ∧
        (∃ before after, s.past = before ++ .parted how :: after ∧ Noted.releases before = [] ∧
          (how = .orphaned ∧ custody.errands = [] ∧ Noted.calls after = [] ∨
            how = .dropped ∧ custody.errands = [.due custody.guard.releaseCall] ∧ Noted.calls after = [] ∧
              (∃ s', Tenure.Step owner s [.asked custody.guard.releaseCall] s') ∨
            how ≠ .orphaned ∧ (∀ call, .due call ∉ custody.errands) ∧
              Noted.calls after = [custody.guard.releaseCall])) ∧
        (∀ t, since + custody.guard.length ≤ t →
          s.backend.leases.owner? t custody.guard.resource ≠ some owner) ∧
        (.gaveUp ∈ s.past → ∀ t, s.backend.leases.owner? t custody.guard.resource ≠ some owner)) ∧
    (∀ c now b s o, Run (Step c owner) (start c now b) s → s.stage = .finished o →
      (.granted ∉ s.tenure.past → Noted.releases s.tenure.past = []) ∧
        ∀ before after, s.tenure.past = before ++ .granted :: after →
          Noted.releases before = [] ∧ Noted.releases after = [.release c.lockResource owner]) ∧
    ∀ c s s' o o', s.stage = .releasing o → Run (Step c owner) s s' → s'.stage = .finished o' → o' = o := by
  refine ⟨?_, ?_, ?_⟩
  · intro now b s custody how since run here parted
    have sound : custody.Sound owner s.now s.backend.leases s.past :=
      (here ▸ (Tenure.sound_start owner now b).run run :
        (Holder.has custody).Sound owner s.now s.backend.leases s.past)
    refine ⟨sound.own, ?_, fun t late => ?_, fun gaveUp => (sound.without gaveUp).owner?_ne⟩
    · obtain ⟨before, after, order, first, orphaned | ⟨dropped, due, none⟩ | called⟩ := sound.calls_of_parted parted
      · exact ⟨before, after, order, first, .inl orphaned⟩
      · have begins : Tenure.Step owner s [.asked custody.guard.releaseCall] _ :=
          .custody here (.begin [] [] due)
        exact ⟨before, after, order, first, .inr (.inl ⟨dropped, due, none, _, begins⟩)⟩
      · exact ⟨before, after, order, first, .inr (.inr called)⟩
    have latest : custody.latest s.now = since + custody.guard.length := by
      rw [Custody.latest, parted]
      rfl
    exact sound.ends.owner?_ne (latest ▸ late)
  · intro c now b s o run here
    have sound := (sound_start c owner now b).run run
    exact sound.given_back here
  · intro c s s' o o' here run there
    have outcome : s.stage.outcome? = some o := by
      rw [here]
      rfl
    have kept := outcome_of_run outcome run
    rw [there] at kept
    exact Option.some.inj kept

/-- A guard is dropped, and its lease is given up by a task. An allocation cannot read again what is stored and
then cannot release its guard either: it has made one call to give its lease up, and fails as the reading did. -/
theorem leases_given_back_after_failures :
    (∃ s custody, Run (Tenure.Step "a") (Tenure.start 0 {}) s ∧ s.holder = .has custody ∧
      custody.stand.parted? = some (.dropped, 0) ∧ .gaveUp ∈ s.past ∧ ∀ t, s.backend.leases.owner? t "r" ≠ some "a") ∧
    ∃ s s' o, Run (Step { host := "h" } "a") (start { host := "h" } 0 {}) s ∧
      s.stage = .releasing (.error .cancelled) ∧ Run (Step { host := "h" } "a") s s' ∧ s'.stage = .finished o ∧
      o = .error .cancelled ∧ .granted ∈ s'.tenure.past ∧
      ∀ before after, s'.tenure.past = before ++ .granted :: after →
        Noted.releases after = [.release "h:key:prefix:namespace:v1:lock" "a"] := by
  constructor
  · have asked : Tenure.Step "a" (Tenure.start 0 {}) [.asked (.tryAcquire "r" "a" 10)] _ :=
      .ask (a := ⟨"r", "a", 10, 5, none⟩) rfl rfl
    have granted := ((Run.single asked).tail (.attempt rfl)).tail (.judge rfl (.ok true) rfl)
    have dropped := granted.tail (.custody rfl (.drop rfl))
    have begun := dropped.tail (.custody rfl (.begin [] [] rfl))
    have run := begun.tail (.custody rfl (.giveUp [] [] rfl))
    obtain ⟨-, -, -, ended⟩ := (leases_given_back "a").1 0 {} _ _ _ _ run rfl rfl
    exact ⟨_, _, run, rfl, rfl, by decide, ended (by decide)⟩
  · have asked : Step { host := "h" } "a" (start { host := "h" } 0 {}) _ _ :=
      .hear rfl rfl (.ok none) ⟨"h-0", none⟩ rfl
    have granted := ((Run.single asked).tail (.around (.attempt rfl) .asking)).tail
      (.judge rfl rfl (.ok true) rfl ⟨"h-0", none⟩)
    have failed := granted.tail (.hear rfl rfl (.error .cancelled) ⟨"h-0", none⟩ rfl)
    have resting : ∀ {s s' : Allocating}, Run (Step { host := "h" } "a") s s' → Run (Step { host := "h" } "a") s' s' :=
      fun _ => Run.refl _
    have released := (resting failed).tail (.release rfl rfl rfl)
    have finished := released.tail (.finish rfl rfl rfl [] [] rfl (.error .cancelled) trivial true)
    exact ⟨_, _, _, failed, rfl, finished, rfl,
      (leases_given_back "a").2.2 _ _ _ _ _ rfl finished rfl, by decide, fun before after split =>
      (((leases_given_back "a").2.1 _ 0 {} _ _ (failed.trans finished) rfl).2 before after split).2⟩

end Allocating
end CertWatch
