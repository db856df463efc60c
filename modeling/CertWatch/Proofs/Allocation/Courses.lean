import CertWatch.Proofs.Allocation.Agreement

/-!
# What calls can come to

A call that finds a prefix stored returns it. A call that finds none and is granted the lease comes to
write one. A call whose write has taken effect returns its prefix if it still has the lease by then, and
a failure otherwise.
-/

namespace CertWatch
set_option autoImplicit false

/-- A guard that was just granted holds its lease, if the call that granted it did not take too long. -/
theorem Tenancy.held_of_granted {t : Tenancy} {n since : Nat} {a : Acquisition} {done? : Option Bool}
    (there : t.tenants n = .holding (a.guard since t.now) done?) (lasts : t.now < since + a.length) :
    t.held n = true := by
  simp [held, there, Tenant.guard?, Acquisition.guard, Guard.granted, Guard.isHeld, lasts]

namespace Fleet

variable {ro : Roster} {s s' : Fleet} {n m : Nat} {d d' : Desk} {a : Turn} {v : String}

@[simp] theorem place_desk (s : Fleet) (n : Nat) : s.place ro n (s.desk ro n) = s := by
  simp [place, desk]

theorem place_of_empty (empty : s.cells (ro.home n) = {}) :
    s.place ro n ⟨s.tenancy, {}, s.callers n⟩ = s := by
  rw [← empty]
  exact place_desk s n

@[simp] theorem desk_place (s : Fleet) (n : Nat) (d : Desk) : (s.place ro n d).desk ro n = d := by
  simp [place, desk]

@[simp] theorem place_place (s : Fleet) (n : Nat) (d d' : Desk) :
    (s.place ro n d).place ro n d' = s.place ro n d' := by
  simp [place]

/-- The tenants, cells and calls that have nothing to do with a call are as they were. -/
structure Apart (ro : Roster) (n : Nat) (s s' : Fleet) : Prop where
  tenants : ∀ m, m ≠ n → s'.tenancy.tenants m = s.tenancy.tenants m
  cells : ∀ p, p ≠ ro.home n → s'.cells p = s.cells p
  callers : ∀ m, m ≠ n → s'.callers m = s.callers m

theorem Apart.trans {s' s'' : Fleet} (first : Apart ro n s s') (second : Apart ro n s' s'') :
    Apart ro n s s'' where
  tenants m ne := (second.tenants m ne).trans (first.tenants m ne)
  cells p ne := (second.cells p ne).trans (first.cells p ne)
  callers m ne := (second.callers m ne).trans (first.callers m ne)

theorem apart_place (s : Fleet) {t : Tenant} (there : d.tenancy.tenants = Function.update s.tenancy.tenants n t) :
    Apart ro n s (s.place ro n d) where
  tenants m ne := by simp [there, ne]
  cells p ne := by simp [place, ne]
  callers m ne := place_callers_of_ne s d ne

/-- A move of the call that has just moved. -/
theorem step_placed (move : Move ro n d a d') : Step ro (s.place ro n d) (.moved n a) (s.place ro n d') := by
  have moved : Step ro (s.place ro n d) (.moved n a) ((s.place ro n d).place ro n d') :=
    .move n (by rw [desk_place]; exact move)
  rwa [place_place] at moved

theorem timely_of_ne (step : Step ro s (.moved n a) s') (notWritten : a ≠ .wrote) :
    TimelyStep ro s (.moved n a) s' := by
  refine ⟨step, ?_⟩
  rintro m ⟨⟩
  exact absurd rfl notWritten

theorem timely_placed (move : Move ro n d a d') (ne : a ≠ .wrote) :
    TimelyStep ro (s.place ro n d) (.moved n a) (s.place ro n d') :=
  timely_of_ne (step_placed move) ne

theorem timely_around {e : Tenancy.Event} {t : Tenancy} (quiet : e.Quiet ro.config.prefixKey)
    (step : Tenancy.Step ro.owner s.tenancy e t) : TimelyStep ro s .around { s with tenancy := t } :=
  ⟨.around quiet step, fun _ => nofun⟩

theorem timely_placed_around {e : Tenancy.Event} {t : Tenancy} (quiet : e.Quiet ro.config.prefixKey)
    (step : Tenancy.Step ro.owner d.tenancy e t) :
    TimelyStep ro (s.place ro n d) .around (s.place ro n { d with tenancy := t }) :=
  timely_around quiet step

/-- Time passes. -/
theorem waits (ro : Roster) (s : Fleet) (length : Nat) :
    Run (TimelyStep ro) s { s with tenancy := { s.tenancy with now := s.tenancy.now + length } } := by
  induction length with
  | zero => exact Run.refl s
  | succ length ih => exact ih.tail (timely_around ⟨id, trivial⟩ .pass)

/-- A call that does nothing but read. -/
def Reads (ro : Roster) (n : Nat) (t : Tenancy) (d : Desk) (a : Turn) (d' : Desk) : Prop :=
  Move ro n d a d' ∧ d.tenancy = t ∧ a ≠ .wrote ∧ ∀ r, a ≠ .acknowledged r

/-- A new call of a process that has found nothing as yet reads what is stored. -/
theorem opens (ro : Roster) (n : Nat) (t : Tenancy) {c : Caller} (idle : c.phase = .idle) :
    Run (Reads ro n t) ⟨t, {}, c⟩ ⟨t, { line := ⟨[n]⟩ },
      { phase := .working .reading, seen? := some (t.answer (.get ro.config.prefixKey)) }⟩ := by
  have turn : (({} : Once String).enter n).admits n = true := by
    simp [Once.enter, Once.admits, Line.enter, Line.holds]
  have entered : Reads ro n t ⟨t, {}, c⟩ .called _ := ⟨.call idle rfl, rfl, by simp, by simp⟩
  have called := Run.single entered
  have begun := called.tail ⟨.begin rfl rfl turn, rfl, by simp, by simp⟩
  simp only [Stage.start, ro.notStatic] at begun
  have read := begun.tail ⟨.read rfl rfl rfl, rfl, by simp, by simp⟩
  exact read

/-- It finds it, if it can use it. -/
theorem reads {t : Tenancy} {c : Caller} (idle : c.phase = .idle) (stored : ro.stored? t = some v) :
    Run (Reads ro n t) ⟨t, {}, c⟩ ⟨t, { value := some v }, { phase := .returned (.ok v) }⟩ := by
  have found : Stage.answered ro.config (ro.moment t n) .reading (.get ro.config.prefixKey)
      (.ok (t.answer (.get ro.config.prefixKey))) = .finished (.ok v) := Stage.afterRead_of_some stored
  have heard := (opens ro n t idle).tail ⟨.hear rfl rfl (.ok _) rfl found.symm, rfl, by simp, by simp⟩
  have settled := heard.tail ⟨.settle (o := .ok v) rfl, rfl, by simp, by simp⟩
  exact settled

/-- The steps of a call that does nothing but read, seen from the whole fleet. -/
theorem run_of_reads {S : Fleet → Event → Fleet → Prop} {t : Tenancy} (s : Fleet)
    (lift : ∀ s a s', Step ro s (.moved n a) s' → s.tenancy = t → a ≠ .wrote →
      (∀ r, a ≠ .acknowledged r) → S s (.moved n a) s')
    (run : Run (Reads ro n t) d d') : Run S (s.place ro n d) (s.place ro n d') := by
  induction run with
  | refl => exact Run.refl _
  | tail _ step ih =>
    obtain ⟨a, move, here, notWritten, notHeard⟩ := step
    exact ih.tail (lift _ a _ (step_placed move) here notWritten notHeard)

/-- A new call of a process that has found nothing as yet returns what is stored. -/
theorem adopts {S : Fleet → Event → Fleet → Prop} (idle : (s.callers n).phase = .idle)
    (empty : s.cells (ro.home n) = {}) (stored : ro.stored? s.tenancy = some v)
    (lift : ∀ s' a s'', Step ro s' (.moved n a) s'' → s'.tenancy = s.tenancy → a ≠ .wrote →
      (∀ r, a ≠ .acknowledged r) → S s' (.moved n a) s'') :
    ∃ s', Run S s s' ∧ Apart ro n s s' ∧ s'.tenancy = s.tenancy ∧
      (s'.callers n).phase = .returned (.ok v) := by
  have run := run_of_reads s lift (reads idle stored)
  rw [place_of_empty empty] at run
  refine ⟨_, run, apart_place s (Function.update_eq_self n _).symm, rfl, ?_⟩
  rw [place_callers_self]

/-! ## Writing -/

section Writing

/-- A new call that finds nothing, neither in its process nor in the store, asks for the lease. -/
theorem asks {a : Acquisition} (want : a = Stage.wanted ro.config (ro.owner n) s.tenancy.now)
    (idle : (s.callers n).phase = .idle) (empty : s.cells (ro.home n) = {})
    (nothing : ro.stored? s.tenancy = none) :
    Run (TimelyStep ro) s (s.place ro n
      ⟨s.tenancy.put n (.asking a s.tenancy.now none), { line := ⟨[n]⟩ },
        { phase := .working (.asking a s.tenancy.now) }⟩) := by
  subst want
  have opening := opens ro n s.tenancy idle
  have opened := run_of_reads s (S := TimelyStep ro)
    (fun _ _ _ step _ notWritten _ => timely_of_ne step notWritten) opening
  have asking : Stage.answered ro.config (ro.moment s.tenancy n) .reading (.get ro.config.prefixKey)
      (.ok (s.tenancy.answer (.get ro.config.prefixKey))) =
        .asking (Stage.wanted ro.config (ro.owner n) s.tenancy.now) s.tenancy.now :=
    Stage.afterRead_of_none nothing
  have asked := opened.tail (timely_placed (.hear rfl rfl (.ok _) rfl asking.symm) (by simp))
  rw [place_of_empty empty] at asked
  exact asked

variable {t : Tenancy}

/-- A call that asks for a lease which nobody has is granted it. -/
theorem takes (ro : Roster) (s : Fleet) (cell : Once String) {a : Acquisition} {since : Nat}
    (there : t.tenants n = .asking a since none) (free : t.owner? a.resource = none) :
    ∃ t', Run (TimelyStep ro) (s.place ro n ⟨t, cell, { phase := .working (.asking a since) }⟩)
        (s.place ro n ⟨t', cell, { phase := .working .rereading }⟩) ∧
      t'.tenants = Function.update t.tenants n (.holding (a.guard since t.now) none) ∧ t'.now = t.now ∧
      t'.backend.store = t.backend.store ∧
      t'.backend.leases = t.backend.leases.insert a.resource ⟨a.owner, t.now + a.length⟩ := by
  have granted : t.backend.leases.tryAcquire t.now a.resource a.owner a.length =
      (t.backend.leases.insert a.resource ⟨a.owner, t.now + a.length⟩, true) := by
    have allowed : t.backend.leases.allows t.now a.resource a.owner = true := by
      unfold Leases.allows
      rw [show t.backend.leases.owner? t.now a.resource = none from free]
      rfl
    simp [Leases.tryAcquire, allowed]
  have told : t.answer a.attempt = true := congrArg Prod.snd granted
  have attempt : TimelyStep ro (s.place ro n ⟨t, cell, { phase := .working (.asking a since) }⟩) .around _ :=
    timely_placed_around ⟨id, trivial⟩ (.attempt n there)
  have attempted := Run.single attempt
  have judged := attempted.tail (timely_placed
    (.judge rfl (Function.update_self ..) (.ok true) (congrArg some told)) (by simp))
  refine ⟨_, judged, ?_, rfl, rfl, congrArg Prod.fst granted⟩
  simp [Tenancy.mark, Tenancy.perform, Tenant.judged, Acquisition.judge]

/-- A call that holds the lease and finds nothing stored comes to write. -/
theorem rereads (s : Fleet) (cell : Once String) (nothing : ro.stored? t = none) (held : t.held n = true) :
    Run (TimelyStep ro) (s.place ro n ⟨t, cell, { phase := .working .rereading }⟩)
      (s.place ro n ⟨t, cell, { phase := .working (.writing (ro.fresh n)), minted := true }⟩) := by
  have again : Move ro n ⟨t, cell, { phase := .working .rereading }⟩ .read _ := .read rfl rfl rfl
  have read := Run.single (timely_placed (s := s) again (by simp))
  have writing : Stage.answered ro.config (ro.moment t n) .rereading (.get ro.config.prefixKey)
      (.ok (t.answer (.get ro.config.prefixKey))) = .writing (ro.fresh n) := by
    simp only [Stage.answered, Roster.moment, held]
    exact Stage.afterReread_of_none nothing
  have heard := read.tail (timely_placed (.hear rfl rfl (.ok _) rfl writing.symm) (by simp))
  exact heard

/-- A new call that finds nothing, neither in its process nor in the store, and a lease that nobody has,
comes to write. -/
theorem mints (idle : (s.callers n).phase = .idle) (empty : s.cells (ro.home n) = {})
    (nothing : ro.stored? s.tenancy = none) (free : s.tenancy.owner? ro.config.lockResource = none)
    (long : 0 < ro.config.leaseSeconds) :
    ∃ s' g, Run (TimelyStep ro) s s' ∧ Apart ro n s s' ∧
      s'.callers n = { phase := .working (.writing (ro.fresh n)), minted := true } ∧
      s'.cells (ro.home n) = { line := ⟨[n]⟩ } ∧ s'.tenancy.tenants n = .holding g none ∧
      s'.tenancy.now = s.tenancy.now ∧ ro.stored? s'.tenancy = none ∧ s'.tenancy.now < g.expiresAt ∧
      s'.tenancy.held n = true ∧
      s'.tenancy.backend.leases.get? ro.config.lockResource = some ⟨ro.owner n, g.expiresAt⟩ := by
  have asked := asks rfl idle empty nothing
  generalize want : Stage.wanted ro.config (ro.owner n) s.tenancy.now = a at asked
  have resource : a.resource = ro.config.lockResource := by rw [← want]; rfl
  have owner : a.owner = ro.owner n := by rw [← want]; rfl
  have lasts : 0 < a.length := by
    rw [← want]
    exact Nat.mul_pos long Clock.second_pos
  obtain ⟨t, taken, tenants, now, store, leases⟩ := takes ro s { line := ⟨[n]⟩ }
    (Function.update_self ..) (show (s.tenancy.put n (.asking a s.tenancy.now none)).owner? a.resource = none
      from resource ▸ free)
  rw [Tenancy.put_now] at now tenants leases
  have here : t.tenants n = .holding (a.guard s.tenancy.now t.now) none := by
    rw [tenants, now]
    exact Function.update_self ..
  have held : t.held n = true := Tenancy.held_of_granted here (by omega)
  have stored : ro.stored? t = none := by
    rw [Roster.stored?, store]
    exact nothing
  refine ⟨_, _, asked.trans (taken.trans (rereads s _ stored held)),
    apart_place s (t := .holding (a.guard s.tenancy.now t.now) none) ?_, ?_, ?_, here, now, stored, ?_, held, ?_⟩
  · rw [tenants, now]
    simp
  · rw [place_callers_self]
  · simp [place]
  · rw [place_tenancy]
    show t.now < s.tenancy.now + a.length
    omega
  · rw [place_tenancy, leases, resource, owner]
    exact Table.get?_insert_self _ _ _

/-- A write takes effect. -/
theorem Consistent.lands (h : s.Consistent ro) {f : StoredPrefix}
    (writing : (s.callers n).phase = .working (.writing f)) (pending : (s.callers n).landed = false) :
    ∃ s', Step ro s (.moved n .wrote) s' ∧ Apart ro n s s' ∧ s'.cells = s.cells ∧
      s'.callers n = { s.callers n with landed := true } ∧ s'.tenancy.tenants = s.tenancy.tenants ∧
      s'.tenancy.now = s.tenancy.now ∧ ro.stored? s'.tenancy = some f.value := by
  obtain ⟨rfl, -⟩ := (h.sound n).written f writing
  have move : Move ro n (s.desk ro n) .wrote
      ⟨s.tenancy.perform (.set ro.config.prefixKey (ro.fresh n).encode), s.cells (ro.home n),
        { s.callers n with landed := true }⟩ := .write writing pending
  refine ⟨_, .move n move, apart_place s (Function.update_eq_self n _).symm, ?_, place_callers_self s n _, rfl,
    rfl, move.stored?_of_wrote (h.sound n)⟩
  exact Function.update_eq_self _ _

/-- What a call returns whose write has taken effect. -/
def outcome (ro : Roster) (n : Nat) (held : Bool) : Except Failure String :=
  if held then .ok (ro.fresh n).value else .error (Guard.lossOf ro.config.lockResource)

/-- A call whose write has taken effect gives its lease up and returns. -/
theorem concludes {g : Guard} {done? : Option Bool}
    (here : s.callers n = { phase := .working (.writing (ro.fresh n)), minted := true, landed := true })
    (there : s.tenancy.tenants n = .holding g done?) :
    ∃ s', Run (TimelyStep ro) s s' ∧ Apart ro n s s' ∧
      s'.callers n =
        { phase := .returned (outcome ro n (s.tenancy.held n)), minted := true, landed := true } ∧
      s'.cells (ro.home n) = (s.cells (ro.home n)).settle n (outcome ro n (s.tenancy.held n)) ∧
      s'.tenancy.now = s.tenancy.now ∧ s'.tenancy.backend.store = s.tenancy.backend.store := by
  have begins : s.place ro n ⟨s.tenancy, s.cells (ro.home n),
      { phase := .working (.writing (ro.fresh n)), minted := true, landed := true }⟩ = s := by
    rw [← here]
    exact place_desk s n
  have answered : Move ro n ⟨s.tenancy, s.cells (ro.home n),
      { phase := .working (.writing (ro.fresh n)), minted := true, landed := true }⟩
      (.acknowledged (.ok ())) _ := .acknowledge rfl (.ok ()) fun _ => rfl
  have acknowledged := Run.single (timely_placed (s := s) answered (by simp))
  have released := acknowledged.tail (timely_placed (.release rfl there) (by simp))
  have givenUp := released.tail (timely_placed_around ⟨id, trivial⟩ (.giveUp n (Function.update_self ..)))
  have finished := givenUp.tail (timely_placed (.finish rfl (Function.update_self ..) (.ok ()) rfl) (by simp))
  have settled := finished.tail (timely_placed (.settle rfl) (by simp))
  rw [begins] at settled
  refine ⟨_, settled, apart_place s (t := .gone) ?_, place_callers_self s n _, ?_, rfl, rfl⟩
  · simp [Tenancy.mark]
  · exact Function.update_self _ _ _

end Writing

end Fleet
end CertWatch
