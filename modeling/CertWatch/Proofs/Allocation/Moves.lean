import CertWatch.Proofs.Allocation.Stages

/-!
# What a move can do

A move of one call concerns its tenant, its cell and itself, and nothing else. Only a write changes what
is stored. What a call knows comes from its cell, from the store or from its own write, and it comes to
write only where it has seen nothing that it could use.
-/

namespace CertWatch
set_option autoImplicit false

namespace Caller

variable {ro : Roster} {fresh : StoredPrefix} {c : Caller} {phase : Phase}

/-- Whether a call is on the way to write or has not yet heard of its write: it holds a guard and has
seen nothing under it that it could use. -/
def Minting (ro : Roster) (c : Caller) : Prop :=
  (c.phase = .working .rereading ∧ ∃ bytes, c.seen? = some bytes ∧ ro.usable? bytes = none) ∨
    ∃ f, c.phase = .working (.writing f)

/-- Whether a call came to a prefix of its own. -/
def Created (c : Caller) : Prop := c.minted = true ∧ ∃ v, c.phase.outcome? = some (.ok v)

/-- What holds of a call between any two steps. -/
structure Sound (fresh : StoredPrefix) (c : Caller) : Prop where
  seen : ∀ bytes, c.seen? = some bytes → c.phase = .working .reading ∨ c.phase = .working .rereading
  written : ∀ f, c.phase = .working (.writing f) → f = fresh ∧ c.minted = true
  early : c.phase.outcome? = none → (∀ f, c.phase ≠ .working (.writing f)) → c.minted = false
  own : c.minted = true → ∀ v, c.phase.outcome? = some (.ok v) → v = fresh.value ∧ c.landed = true
  earned : c.landed = true → c.minted = true

/-- Whether a call knows a prefix: it has come to it, has read it or has written it. -/
def Knows (ro : Roster) (fresh : StoredPrefix) (c : Caller) (v : String) : Prop :=
  c.phase.outcome? = some (.ok v) ∨ (∃ bytes, c.seen? = some bytes ∧ ro.usable? bytes = some v) ∨
    c.landed = true ∧ v = fresh.value

/-- A call that is not reading has seen nothing. -/
theorem Sound.unseen (h : c.Sound fresh) (first : c.phase ≠ .working .reading)
    (second : c.phase ≠ .working .rereading) : c.seen? = none := by
  cases seen : c.seen? with
  | none => rfl
  | some bytes =>
    rcases h.seen bytes seen with here | here
    · exact absurd here first
    · exact absurd here second

/-- A call that has not begun to work has seen and written nothing. -/
theorem Sound.of_new (h : c.Sound fresh) (here : c.phase = .idle ∨ c.phase = .waiting) :
    c.seen? = none ∧ c.minted = false := by
  rcases here with here | here
  · exact ⟨h.unseen (here ▸ nofun) (here ▸ nofun), h.early (here ▸ rfl) (here ▸ fun _ => nofun)⟩
  · exact ⟨h.unseen (here ▸ nofun) (here ▸ nofun), h.early (here ▸ rfl) (here ▸ fun _ => nofun)⟩

/-- A call that waits for a reading has not come to write. -/
theorem Sound.unminted_of_wants (h : c.Sound fresh) {stage : Stage} {config : NamespaceConfig}
    (here : c.phase = .working stage)
    (wants : stage.want config = .answer (.get config.prefixKey)) : c.minted = false := by
  rcases Stage.of_want_get wants with rfl | rfl
  · exact h.early (here ▸ rfl) (here ▸ fun _ => nofun)
  · exact h.early (here ▸ rfl) (here ▸ fun _ => nofun)

/-- All that is left open of a call at its write is whether it has taken effect. -/
theorem Sound.eq_of_writing (h : c.Sound fresh) {f : StoredPrefix} (writing : c.phase = .working (.writing f)) :
    c = { phase := .working (.writing fresh), minted := true, landed := c.landed } := by
  obtain ⟨rfl, minted⟩ := h.written f writing
  have unseen := h.unseen (writing ▸ nofun) (writing ▸ nofun)
  cases c
  simp_all

/-- A call that goes on without having come to a write. -/
theorem sound_of_early (seen : ∀ bytes, c.seen? = some bytes →
      c.phase = .working .reading ∨ c.phase = .working .rereading)
    (notWriting : ∀ f, c.phase ≠ .working (.writing f)) (minted : c.minted = false)
    (earned : c.landed = true → c.minted = true) : c.Sound fresh where
  seen := seen
  written f here := absurd here (notWriting f)
  early _ _ := minted
  own isMinted := by
    rw [minted] at isMinted
    cases isMinted
  earned := earned

/-- A call comes to something. -/
theorem sound_of_outcome {o : Except Failure String} (seen : c.seen? = none)
    (came : c.phase.outcome? = some o)
    (own : c.minted = true → ∀ v, o = .ok v → v = fresh.value ∧ c.landed = true)
    (earned : c.landed = true → c.minted = true) : c.Sound fresh where
  seen bytes read := by
    rw [seen] at read
    cases read
  written f here := by
    rw [here] at came
    cases came
  early notYet := by
    rw [notYet] at came
    cases came
  own minted v here := by
    rw [here] at came
    exact own minted v (Option.some.inj came).symm
  earned := earned

end Caller

namespace Move

variable {ro : Roster} {n m : Nat} {d d' : Desk} {a : Turn} {v : String}

/-- What an allocation does after a reading: it asks for the lease, it writes, or it has come to
something. -/
theorem heard_cases {stage : Stage} (wants : stage.want ro.config = .answer (.get ro.config.prefixKey))
    (t : Tenancy) (r : Except Failure (Option Bytes)) :
    (stage = .reading ∧ stage.answered ro.config (ro.moment t n) (.get ro.config.prefixKey) r =
        .asking (Stage.wanted ro.config (ro.owner n) t.now) t.now) ∨
    (stage = .rereading ∧ (∃ bytes, r = .ok bytes ∧ ro.usable? bytes = none) ∧
      stage.answered ro.config (ro.moment t n) (.get ro.config.prefixKey) r = .writing (ro.fresh n)) ∨
    ∃ o, (∀ v, o = .ok v → ∃ bytes, r = .ok bytes ∧ ro.usable? bytes = some v) ∧
      (stage = .reading ∧
          stage.answered ro.config (ro.moment t n) (.get ro.config.prefixKey) r = .finished o ∨
        stage = .rereading ∧
          stage.answered ro.config (ro.moment t n) (.get ro.config.prefixKey) r = .releasing o) := by
  rcases Stage.of_want_get wants with rfl | rfl
  · rcases Stage.afterRead_cases ro.config (ro.owner n) t.now r with ⟨-, -, -, ask⟩ | ⟨o, done, known⟩
    · exact .inl ⟨rfl, ask⟩
    · exact .inr (.inr ⟨o, known, .inl ⟨rfl, done⟩⟩)
  · rcases Stage.afterReread_cases ro.config (t.held n) (ro.fresh n) r with
      ⟨bytes, heard, nothing, write⟩ | ⟨o, done, known⟩
    · exact .inr (.inl ⟨rfl, ⟨bytes, heard, nothing⟩, write⟩)
    · exact .inr (.inr ⟨o, known, .inr ⟨rfl, done⟩⟩)

section Frame

theorem tenants_of_ne (move : Move ro n d a d') (ne : m ≠ n) :
    d'.tenancy.tenants m = d.tenancy.tenants m := by
  cases move with
  | hear here wants r told after => exact Tenancy.enter_tenants_of_ne d.tenancy _ ne
  | judge here there r told => simp [ne]
  | resume here there due => simp [ne]
  | release here there => simp [ne]
  | finish here there r told => simp [ne]
  | _ => rfl

/-- A call's tenant goes with it. -/
theorem fits {r : String} (resource : r = ro.config.lockResource) (move : Move ro n d a d')
    (h : d.caller.phase.Fits r (d.tenancy.tenants n)) :
    d'.caller.phase.Fits r (d'.tenancy.tenants n) := by
  subst resource
  cases move with
  | call new empty =>
    rw [new] at h
    exact h
  | reuse here found => trivial
  | begin here empty turn =>
    rw [here] at h
    simp only [Stage.start, ro.notStatic]
    exact h
  | read here wants new => exact h
  | @hear stage next here wants r told after =>
    rw [here] at h
    subst after
    rcases heard_cases (n := n) wants d.tenancy r with
      ⟨rfl, ask⟩ | ⟨rfl, -, write⟩ | ⟨o, -, ⟨rfl, done⟩ | ⟨rfl, done⟩⟩
    · rw [ask]
      refine ⟨rfl, none, ?_⟩
      simp [Tenancy.enter]
    · rw [write]
      exact h
    · rw [done]
      trivial
    · rw [done]
      obtain ⟨g, done?, there, -⟩ := h
      exact .inl ⟨g, done?, there⟩
  | @judge a since done? here there r told =>
    rw [here] at h
    have judged := Stage.fits_judged h.1 since d.tenancy.now r
    simpa [Phase.Fits, Stage.answered, Acquisition.attempt, Roster.moment] using judged
  | @resume a next here there due =>
    rw [here] at h
    refine ⟨h.1, none, ?_⟩
    simp
  | write here new => exact h
  | @acknowledge f here r told =>
    rw [here] at h
    obtain ⟨g, done?, there, -⟩ := h
    obtain ⟨o, done, -⟩ := Stage.afterWrite_cases ro.config (d.tenancy.held n) f r
    simp only [Stage.answered, Roster.moment, done]
    exact .inl ⟨g, done?, there⟩
  | @release o g done? here there =>
    show d.caller.phase.Fits _ _
    rw [here]
    refine .inr ⟨g.release, none, ?_⟩
    simp
  | finish here there r told => trivial
  | settle here => trivial

/-- A move of a call is a step of its tenant, the call of somebody else, or none at all. -/
theorem run (move : Move ro n d a d')
    (h : d.caller.phase.Fits ro.config.lockResource (d.tenancy.tenants n)) :
    Run (Tenancy.Step ro.owner) d.tenancy d'.tenancy := by
  have here : Run (Tenancy.Step ro.owner) d.tenancy d.tenancy := .refl _
  -- Only the first reading, of those that the call hears, has its tenant do something.
  cases move with
  | @hear stage next phase wants r told after =>
    rw [phase] at h
    subst after
    rcases heard_cases (n := n) wants d.tenancy r with
      ⟨rfl, ask⟩ | ⟨rfl, -, write⟩ | ⟨o, -, ⟨rfl, done⟩ | ⟨rfl, done⟩⟩
    · rw [ask]
      exact here.tail (.ask n h rfl)
    · rw [write]
      exact here
    · rw [done]
      exact here
    · rw [done]
      exact here
  | judge phase there r told => exact here.tail (.judge n there r told)
  | resume phase there due => exact here.tail (.resume n there due)
  | write phase new => exact here.tail (.outside fun _ => nofun)
  | release phase there => exact here.tail (.release n there)
  | finish phase there r told => exact here.tail (.finish n there r told)
  | _ => exact here

theorem stored?_of_ne (move : Move ro n d a d') (ne : a ≠ .wrote) :
    ro.stored? d'.tenancy = ro.stored? d.tenancy := by
  cases move with
  | hear here wants r told after => simp [Roster.stored?]
  | write here new => exact absurd rfl ne
  | _ => rfl

theorem stored?_of_wrote (move : Move ro n d .wrote d') (sound : d.caller.Sound (ro.fresh n)) :
    ro.stored? d'.tenancy = some (ro.fresh n).value := by
  cases move with
  | @write f here new =>
    obtain ⟨rfl, -⟩ := sound.written f here
    have found : (d.tenancy.perform (.set ro.config.prefixKey (ro.fresh n).encode)).backend.store.get?
        ro.config.prefixKey = some (ro.fresh n).encode := Table.get?_insert_self _ _ _
    rw [Roster.stored?, found]
    exact ro.usable?_fresh n

end Frame

section Knowledge

/-- What holds of a call between two steps holds after a move. -/
theorem sound (move : Move ro n d a d') (h : d.caller.Sound (ro.fresh n)) :
    d'.caller.Sound (ro.fresh n) := by
  cases move with
  | call new empty => exact Caller.sound_of_early nofun (fun _ => nofun) rfl nofun
  | reuse here found =>
    obtain ⟨unseen, unminted⟩ := h.of_new here
    refine Caller.sound_of_outcome unseen rfl ?_ h.earned
    intro minted
    rw [unminted] at minted
    cases minted
  | begin here empty turn =>
    simp only [Stage.start, ro.notStatic]
    have unseen := h.unseen (here ▸ nofun) (here ▸ nofun)
    refine Caller.sound_of_early ?_ (fun _ => nofun) (h.early (here ▸ rfl) (here ▸ fun _ => nofun)) h.earned
    intro bytes read
    exact .inl rfl
  | @read stage here wants new =>
    have early := h.unminted_of_wants here wants
    rcases Stage.of_want_get wants with rfl | rfl
    · exact Caller.sound_of_early (fun _ _ => .inl here) (here ▸ fun _ => nofun) early h.earned
    · exact Caller.sound_of_early (fun _ _ => .inr here) (here ▸ fun _ => nofun) early h.earned
  | @hear stage next here wants r told after =>
    have early := h.unminted_of_wants here wants
    subst after
    rcases heard_cases (n := n) wants d.tenancy r with
      ⟨rfl, ask⟩ | ⟨rfl, -, write⟩ | ⟨o, -, ⟨rfl, done⟩ | ⟨rfl, done⟩⟩
    · rw [ask]
      exact Caller.sound_of_early nofun (fun _ => nofun) early h.earned
    · rw [write]
      refine ⟨nofun, ?_, fun _ notWriting => absurd rfl (notWriting _), fun _ _ => nofun, fun _ => rfl⟩
      rintro f ⟨⟩
      exact ⟨rfl, rfl⟩
    · rw [done]
      exact Caller.sound_of_outcome rfl rfl (fun minted => by simp [Stage.isWriting, early] at minted) h.earned
    · rw [done]
      exact Caller.sound_of_outcome rfl rfl (fun minted => by simp [Stage.isWriting, early] at minted) h.earned
  | @judge a since done? here there r told =>
    have unseen := h.unseen (here ▸ nofun) (here ▸ nofun)
    have early := h.early (here ▸ rfl) (here ▸ fun _ => nofun)
    refine Caller.sound_of_early (fun bytes seen => absurd seen (unseen ▸ nofun)) ?_ early h.earned
    intro f writing
    exact (Stage.answered_attempt _ _ a since r).1 f (Phase.working.inj writing)
  | resume here there due =>
    have unseen := h.unseen (here ▸ nofun) (here ▸ nofun)
    have early := h.early (here ▸ rfl) (here ▸ fun _ => nofun)
    exact Caller.sound_of_early (fun bytes seen => absurd seen (unseen ▸ nofun)) (fun _ => nofun) early
      h.earned
  | write here new =>
    refine ⟨h.seen, h.written, h.early, ?_, fun _ => (h.written _ here).2⟩
    intro minted v came
    rw [here] at came
    cases came
  | @acknowledge f here r told =>
    have unseen := h.unseen (here ▸ nofun) (here ▸ nofun)
    obtain ⟨o, done, own⟩ := Stage.afterWrite_cases ro.config (d.tenancy.held n) f r
    simp only [Stage.answered, Roster.moment, done]
    refine Caller.sound_of_outcome unseen rfl ?_ h.earned
    intro minted v came
    obtain ⟨rfl, -, rfl⟩ := own v came
    exact ⟨congrArg StoredPrefix.value (h.written f here).1, told rfl⟩
  | release here there => exact h
  | finish here there r told =>
    have unseen := h.unseen (here ▸ nofun) (here ▸ nofun)
    refine Caller.sound_of_outcome unseen rfl ?_ h.earned
    intro minted v came
    exact h.own minted v (by rw [here]; exact congrArg some came)
  | settle here =>
    have unseen := h.unseen (here ▸ nofun) (here ▸ nofun)
    refine Caller.sound_of_outcome unseen rfl ?_ h.earned
    intro minted v came
    exact h.own minted v (by rw [here]; exact congrArg some came)

/-- A call comes to write only where nothing that it could use was stored under its guard. -/
theorem minting (move : Move ro n d a d') (h : d.caller.Sound (ro.fresh n))
    (minting : d'.caller.Minting ro) : d.caller.Minting ro ∨ ro.stored? d.tenancy = none := by
  -- No other phase is one of coming to write.
  have later : ∀ {phase : Phase}, (d'.caller.phase = phase) → phase ≠ .working .rereading →
      (∀ f, phase ≠ .working (.writing f)) → False := by
    rintro _ rfl notReading notWriting
    rcases minting with ⟨reading, -⟩ | ⟨f, writing⟩
    · exact notReading reading
    · exact notWriting f writing
  cases move with
  | call new empty => exact (later rfl nofun (fun _ => nofun)).elim
  | reuse here found => exact (later rfl nofun (fun _ => nofun)).elim
  | begin here empty turn =>
    simp only [Stage.start, ro.notStatic] at later
    exact (later rfl nofun (fun _ => nofun)).elim
  | @read stage here wants new =>
    rcases minting with ⟨reading, bytes, seen, nothing⟩ | writing
    · cases seen
      exact .inr nothing
    · exact .inl (.inr writing)
  | @hear stage next here wants r told after =>
    subst after
    rcases heard_cases (n := n) wants d.tenancy r with
      ⟨rfl, ask⟩ | ⟨rfl, ⟨bytes, rfl, nothing⟩, write⟩ | ⟨o, -, ⟨rfl, done⟩ | ⟨rfl, done⟩⟩
    · rw [ask] at later
      exact (later rfl nofun (fun _ => nofun)).elim
    · exact .inl (.inl ⟨here, bytes, told, nothing⟩)
    · rw [done] at later
      exact (later rfl nofun (fun _ => nofun)).elim
    · rw [done] at later
      exact (later rfl nofun (fun _ => nofun)).elim
  | @judge a since done? here there r told =>
    have unseen := h.unseen (here ▸ nofun) (here ▸ nofun)
    rcases minting with ⟨-, bytes, seen, -⟩ | ⟨f, writing⟩
    · exact absurd seen (unseen ▸ nofun)
    · exact absurd (Phase.working.inj writing) ((Stage.answered_attempt _ _ a since r).1 f)
  | resume here there due => exact (later rfl nofun (fun _ => nofun)).elim
  | write here new => exact .inl (.inr ⟨_, here⟩)
  | @acknowledge f here r told => exact .inl (.inr ⟨f, here⟩)
  | release here there => exact .inl minting
  | finish here there r told => exact (later rfl nofun (fun _ => nofun)).elim
  | settle here => exact (later rfl nofun (fun _ => nofun)).elim

/-- A call comes to a prefix of its own only by a write after which its guard still holds the lease. -/
theorem created (move : Move ro n d a d') (h : d.caller.Sound (ro.fresh n)) (created : d'.caller.Created) :
    d.caller.Created ∨
      d.caller.Minting ro ∧ d.caller.landed = true ∧ d.tenancy.held n = true := by
  have later : d'.caller.minted = d.caller.minted →
      (∀ v, d'.caller.phase.outcome? = some (.ok v) → d.caller.phase.outcome? = some (.ok v)) →
      d.caller.Created := by
    intro minted outcome
    obtain ⟨isMinted, v, came⟩ := created
    exact ⟨minted ▸ isMinted, v, outcome v came⟩
  cases move with
  | call new empty => exact absurd created.1 nofun
  | reuse here found =>
    obtain ⟨-, unminted⟩ := h.of_new here
    have minted : d.caller.minted = true := created.1
    rw [unminted] at minted
    cases minted
  | begin here empty turn =>
    refine .inl (later rfl fun v came => ?_)
    simp only [Stage.start, ro.notStatic] at came
    cases came
  | read here wants new => exact .inl created
  | @hear stage next here wants r told after =>
    have early := h.unminted_of_wants here wants
    obtain ⟨minted, v, came⟩ := created
    simp only [early, Bool.or_false] at minted
    cases next with
    | writing f => cases came
    | _ => cases minted
  | @judge a since done? here there r told =>
    refine .inl (later rfl fun v came => ?_)
    exact absurd came ((Stage.answered_attempt _ _ a since r).2 v)
  | resume here there due => exact .inl (later rfl fun v came => by cases came)
  | write here new => exact .inl (later rfl fun v came => came)
  | @acknowledge f here r told =>
    obtain ⟨-, v, came⟩ := created
    obtain ⟨o, done, own⟩ := Stage.afterWrite_cases ro.config (d.tenancy.held n) f r
    simp only [Stage.answered, Roster.moment, done] at came
    obtain ⟨acknowledged, held, -⟩ := own v (Option.some.inj came)
    exact .inr ⟨.inr ⟨f, here⟩, told acknowledged, held⟩
  | release here there => exact .inl created
  | finish here there r told =>
    refine .inl (later rfl fun v came => ?_)
    rw [here]
    exact came
  | settle here =>
    refine .inl (later rfl fun v came => ?_)
    rw [here]
    exact came

/-- What a call knows after a move it knew before, or its process did, or it is stored, or the call has
just written it. -/
theorem knows (move : Move ro n d a d') (h : d.caller.Sound (ro.fresh n))
    (knows : d'.caller.Knows ro (ro.fresh n) v) :
    d.caller.Knows ro (ro.fresh n) v ∨ d.cell.value = some v ∨ ro.stored? d.tenancy = some v ∨
      a = .wrote ∧ v = (ro.fresh n).value := by
  have later : d'.caller.seen? = d.caller.seen? → d'.caller.landed = d.caller.landed →
      (d'.caller.phase.outcome? = some (.ok v) → d.caller.Knows ro (ro.fresh n) v) →
      d.caller.Knows ro (ro.fresh n) v := by
    intro sameSeen sameLanded came
    rcases knows with now | ⟨bytes, seen, use⟩ | ⟨landed, own⟩
    · exact came now
    · exact .inr (.inl ⟨bytes, sameSeen ▸ seen, use⟩)
    · exact .inr (.inr ⟨sameLanded ▸ landed, own⟩)
  cases move with
  | call new empty =>
    rcases knows with came | ⟨bytes, seen, -⟩ | ⟨landed, -⟩
    · cases came
    · cases seen
    · cases landed
  | reuse here found =>
    rcases knows with came | known
    · cases came
      exact .inr (.inl found)
    · exact .inl (.inr known)
  | begin here empty turn =>
    refine .inl (later rfl rfl fun came => ?_)
    simp only [Stage.start, ro.notStatic] at came
    cases came
  | read here wants new =>
    rcases knows with came | ⟨bytes, seen, use⟩ | wrote
    · exact .inl (.inl came)
    · cases seen
      exact .inr (.inr (.inl use))
    · exact .inl (.inr (.inr wrote))
  | @hear stage next here wants r told after =>
    rcases knows with came | ⟨bytes, seen, -⟩ | wrote
    · subst after
      rcases heard_cases (n := n) wants d.tenancy r with
        ⟨rfl, ask⟩ | ⟨rfl, -, write⟩ | ⟨o, known, done⟩
      · rw [ask] at came
        cases came
      · rw [write] at came
        cases came
      · have isOk : o = .ok v := by
          rcases done with ⟨rfl, done⟩ | ⟨rfl, done⟩ <;>
          · rw [done] at came
            exact Option.some.inj came
        obtain ⟨bytes, rfl, use⟩ := known v isOk
        exact .inl (.inr (.inl ⟨bytes, told, use⟩))
    · cases seen
    · exact .inl (.inr (.inr wrote))
  | @judge a since done? here there r told =>
    refine .inl (later rfl rfl fun came => ?_)
    exact absurd came ((Stage.answered_attempt _ _ a since r).2 v)
  | resume here there due => exact .inl (later rfl rfl fun came => by cases came)
  | @write f here new =>
    rcases knows with came | seen | ⟨-, own⟩
    · exact .inl (.inl came)
    · exact .inl (.inr (.inl seen))
    · exact .inr (.inr (.inr ⟨rfl, own⟩))
  | @acknowledge f here r told =>
    refine .inl (later rfl rfl fun came => ?_)
    obtain ⟨o, done, own⟩ := Stage.afterWrite_cases ro.config (d.tenancy.held n) f r
    simp only [Stage.answered, Roster.moment, done] at came
    obtain ⟨rfl, -, rfl⟩ := own v (Option.some.inj came)
    exact .inr (.inr ⟨told rfl, congrArg StoredPrefix.value (h.written f here).1⟩)
  | release here there => exact .inl knows
  | finish here there r told =>
    refine .inl (later rfl rfl fun came => .inl ?_)
    rw [here]
    exact came
  | settle here =>
    refine .inl (later rfl rfl fun came => .inl ?_)
    rw [here]
    exact came

/-- What is in the cell of a process was there before, or the call has come to it. -/
theorem cell (move : Move ro n d a d') (found : d'.cell.value = some v) :
    d.cell.value = some v ∨ d.caller.phase.outcome? = some (.ok v) := by
  cases move with
  | @settle o here =>
    cases o with
    | error f => exact .inl found
    | ok v' =>
      obtain rfl : v' = v := Option.some.inj found
      exact .inr (by rw [here]; rfl)
  | _ => exact .inl found

theorem landed (move : Move ro n d a d') (landed : d'.caller.landed = true) :
    d.caller.landed = true ∨ a = .wrote := by
  cases move with
  | call new empty => cases landed
  | write here new => exact .inr rfl
  | _ => exact .inl landed

theorem of_wrote (move : Move ro n d .wrote d') :
    (∃ f, d.caller.phase = .working (.writing f)) ∧ d.caller.landed = false := by
  cases move with
  | @write f here new => exact ⟨⟨f, here⟩, new⟩

theorem landed_of_wrote (move : Move ro n d .wrote d') : d'.caller.landed = true := by
  cases move with
  | write here new => rfl

/-- A write that has taken effect is not forgotten. -/
theorem landed_kept (move : Move ro n d a d') (h : d.caller.Sound (ro.fresh n))
    (landed : d.caller.landed = true) : d'.caller.landed = true := by
  cases move with
  | call new empty =>
    have unminted := h.early (new ▸ rfl) (new ▸ fun _ => nofun)
    rw [h.earned landed] at unminted
    cases unminted
  | write here new => rfl
  | _ => exact landed

/-- A call that comes to write has read, under its guard, that there is nothing that it could use. -/
theorem minted (move : Move ro n d a d') (minted : d'.caller.minted = true) :
    d.caller.minted = true ∨ d.caller.Minting ro ∧ d.caller.phase = .working .rereading ∧
      ∃ f, d'.caller.phase = .working (.writing f) := by
  cases move with
  | call new empty => cases minted
  | @hear stage next here wants r told after =>
    rcases Bool.or_eq_true_iff.1 minted with writing | before
    · subst after
      rcases heard_cases (n := n) wants d.tenancy r with
        ⟨rfl, ask⟩ | ⟨rfl, ⟨bytes, rfl, nothing⟩, write⟩ | ⟨o, -, ⟨rfl, done⟩ | ⟨rfl, done⟩⟩
      · rw [ask] at writing
        cases writing
      · exact .inr ⟨.inl ⟨here, bytes, told, nothing⟩, here, ro.fresh n, congrArg Phase.working write⟩
      · rw [done] at writing
        cases writing
      · rw [done] at writing
        cases writing
    · exact .inl before
  | _ => exact .inl minted

theorem minted_kept (move : Move ro n d a d') (h : d.caller.Sound (ro.fresh n))
    (minted : d.caller.minted = true) : d'.caller.minted = true := by
  cases move with
  | call new empty =>
    rw [h.early (new ▸ rfl) (new ▸ fun _ => nofun)] at minted
    cases minted
  | hear here wants r told after => exact Bool.or_eq_true_iff.2 (.inr minted)
  | _ => exact minted

/-- A call that has come to write is still at it, unless it has heard how that went. -/
theorem writing_kept (move : Move ro n d a d') {f : StoredPrefix}
    (writing : d.caller.phase = .working (.writing f)) :
    d'.caller.phase = .working (.writing f) ∨
      ∃ r, a = .acknowledged r ∧ (r = .ok () → d.caller.landed = true) := by
  cases move with
  | write here new => exact .inl writing
  | acknowledge here r told => exact .inr ⟨r, rfl, told⟩
  | call new empty =>
    rw [writing] at new
    cases new
  | reuse here found =>
    rw [writing] at here
    rcases here with here | here <;> cases here
  | read here wants new => exact .inl writing
  | @hear stage next here wants r told after =>
    rw [writing] at here
    cases here
    cases wants
  | begin here =>
    rw [writing] at here
    cases here
  | judge here =>
    rw [writing] at here
    cases here
  | resume here =>
    rw [writing] at here
    cases here
  | release here =>
    rw [writing] at here
    cases here
  | finish here =>
    rw [writing] at here
    cases here
  | settle here =>
    rw [writing] at here
    cases here

end Knowledge

end Move
end CertWatch
