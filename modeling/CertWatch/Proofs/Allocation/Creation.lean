import CertWatch.Proofs.Allocation.Moves

/-!
# One prefix is created

However leases lapse, at most one call ever comes to a prefix that it wrote itself: its guard held the
lease before the write and after it, so the lease was never anybody else's in between, and whoever is
granted it later finds a prefix that can be used.
-/

namespace CertWatch.Fleet
set_option autoImplicit false

variable {ro : Roster} {s s' : Fleet} {e : Event} {n m k : Nat} {d : Desk} {a : Turn}

/-! ## What a step changes -/

@[simp] theorem place_tenancy (s : Fleet) (n : Nat) (d : Desk) : (s.place ro n d).tenancy = d.tenancy := rfl

@[simp] theorem place_callers_self (s : Fleet) (n : Nat) (d : Desk) :
    (s.place ro n d).callers n = d.caller := by simp [place]

theorem place_callers_of_ne (s : Fleet) (d : Desk) (ne : m ≠ n) :
    (s.place ro n d).callers m = s.callers m := by simp [place, ne]

/-- A step leaves a call as it is, or it is a move of that call. -/
theorem caller_of_step (step : Step ro s e s') (m : Nat) :
    s'.callers m = s.callers m ∨
      ∃ a d, e = .moved m a ∧ Move ro m (s.desk ro m) a d ∧ s' = s.place ro m d := by
  cases step with
  | around quiet step => exact .inl rfl
  | @move n a d move =>
    by_cases same : m = n
    · subst same
      exact .inr ⟨a, d, rfl, move, rfl⟩
    · exact .inl (place_callers_of_ne s d same)

/-- What holds between any two steps. -/
structure Consistent (ro : Roster) (s : Fleet) : Prop where
  tenancy : s.tenancy.Consistent ro.owner
  fits : ∀ n, (s.callers n).phase.Fits ro.config.lockResource (s.tenancy.tenants n)
  sound : ∀ n, (s.callers n).Sound (ro.fresh n)

theorem consistent_start (ro : Roster) (now : Nat) (b : Backend) : (start now b).Consistent ro where
  tenancy := Tenancy.consistent_start ro.owner now b
  fits _ := rfl
  sound _ := Caller.sound_of_early nofun (fun _ => nofun) rfl nofun

/-- A step of a fleet is at most one step of its tenants. -/
theorem Consistent.run_tenancy (h : s.Consistent ro) (step : Step ro s e s') :
    Run (Tenancy.Step ro.owner) s.tenancy s'.tenancy := by
  cases step with
  | around quiet step => exact (Run.refl _).tail step
  | move n move => exact move.run (h.fits n)

theorem Consistent.step (h : s.Consistent ro) (step : Step ro s e s') : s'.Consistent ro := by
  refine ⟨h.tenancy.run ro.owner_injective (h.run_tenancy step), ?_, ?_⟩
  · cases step with
    | around quiet step => exact fun n => (h.fits n).like (Tenancy.like_of_quiet quiet step)
    | @move n a d move =>
      intro m
      by_cases same : m = n
      · subst same
        rw [place_callers_self]
        exact move.fits rfl (h.fits m)
      · rw [place_callers_of_ne s d same, place_tenancy, move.tenants_of_ne same]
        exact h.fits m
  · intro m
    rcases caller_of_step step m with same | ⟨a, d, -, move, rfl⟩
    · rw [same]
      exact h.sound m
    · rw [place_callers_self]
      exact move.sound (h.sound m)

/-- A call at work is never stuck: it can go on at once, if only by a failure, or it pauses. -/
theorem Consistent.exists_move (h : s.Consistent ro) {stage : Stage}
    (here : (s.callers n).phase = .working stage) :
    (∃ a d, Move ro n (s.desk ro n) a d) ∨ ∃ wanted next, stage = .pausing wanted next := by
  have fits := h.fits n
  rw [here] at fits
  cases stage with
  | reading => exact .inl ⟨_, _, .hear here rfl (.error .cancelled) trivial rfl⟩
  | asking a since =>
    obtain ⟨-, done?, there⟩ := fits
    exact .inl ⟨_, _, .judge here there (.error .cancelled) trivial⟩
  | pausing a next => exact .inr ⟨a, next, rfl⟩
  | rereading => exact .inl ⟨_, _, .hear here rfl (.error .cancelled) trivial rfl⟩
  | writing f => exact .inl ⟨_, _, .acknowledge here (.error .cancelled) nofun⟩
  | releasing o =>
    rcases fits with ⟨g, done?, there⟩ | ⟨g, done?, there⟩
    · exact .inl ⟨_, _, .release here there⟩
    · exact .inl ⟨_, _, .finish here there (.error .cancelled) trivial⟩
  | finished o => exact .inl ⟨_, _, .settle here⟩

theorem Consistent.run (h : s.Consistent ro) (run : Run (Step ro) s s') : s'.Consistent ro :=
  run.keeps (fun _ _ _ h step => h.step step) h

theorem stored?_of_step (step : Step ro s e s') (notWritten : ∀ n, e ≠ .moved n .wrote) :
    ro.stored? s'.tenancy = ro.stored? s.tenancy := by
  cases step with
  | around quiet step =>
    exact congrArg ro.usable? (Tenancy.get?_store_of_step quiet.1 step)
  | move n move =>
    refine move.stored?_of_ne ?_
    rintro rfl
    exact notWritten n rfl

/-- A prefix that the fleet can use is only ever replaced by another one. -/
theorem isSome_stored?_of_step (h : s.Consistent ro) (step : Step ro s e s')
    (before : (ro.stored? s.tenancy).isSome = true) : (ro.stored? s'.tenancy).isSome = true := by
  by_cases written : ∃ n, e = .moved n .wrote
  · obtain ⟨n, rfl⟩ := written
    cases step with
    | move n move =>
      have now := move.stored?_of_wrote (h.sound n)
      simp [now]
  · rw [stored?_of_step step fun n same => written ⟨n, same⟩]
    exact before

/-! ## Leases -/

/-- A call that is to write has a guard. -/
theorem Consistent.guards (h : s.Consistent ro) (minting : (s.callers n).Minting ro) :
    (s.tenancy.tenants n).Guards ro.config.lockResource := by
  have fits := h.fits n
  rcases minting with ⟨here, -⟩ | ⟨f, here⟩
  · rw [here] at fits
    exact fits
  · rw [here] at fits
    exact fits

/-- While a call is to write, its lease is never interrupted: a lapse would be final. -/
theorem Consistent.owns_of_step (h : s.Consistent ro) (step : Step ro s e s')
    (before : (s.callers n).Minting ro) (after : (s'.callers n).Minting ro)
    (owns : ro.Owns s'.tenancy n) : ro.Owns s.tenancy n :=
  Tenancy.owner?_of_run ro.owner_injective h.tenancy (h.guards before).granted (h.run_tenancy step)
    (Tenant.not_over_of_granted ((h.step step).guards after).granted) owns

/-- A guard of a call that is to write is right when it reports that it holds the lease. -/
theorem Consistent.owns_of_held (h : s.Consistent ro) (minting : (s.callers n).Minting ro)
    (held : s.tenancy.held n = true) : ro.Owns s.tenancy n := by
  obtain ⟨g, done?, there, resource⟩ := h.guards minting
  have isHeld : g.isHeld s.tenancy.now = true := by
    simpa [Tenancy.held, there, Tenant.guard?] using held
  exact (h.tenancy.of_holds ⟨g, by rw [there]; rfl, resource, isHeld⟩).1

theorem eq_of_owns {t : Tenancy} (first : ro.Owns t m) (second : ro.Owns t n) : m = n :=
  ro.owner_injective (Option.some.inj (first.symm.trans second))

/-! ## Creation -/

theorem not_created_of_minting {c : Caller} (minting : c.Minting ro) : ¬ c.Created := by
  rintro ⟨-, v, came⟩
  rcases minting with ⟨here, -⟩ | ⟨f, here⟩
  · rw [here] at came
    cases came
  · rw [here] at came
    cases came

/-- A call comes to write only where nothing that it could use was stored. -/
theorem Consistent.minting_of_step (h : s.Consistent ro) (step : Step ro s e s')
    (minting : (s'.callers n).Minting ro) :
    (s.callers n).Minting ro ∨ ro.stored? s.tenancy = none := by
  rcases caller_of_step step n with same | ⟨a, d, -, move, rfl⟩
  · exact .inl (same ▸ minting)
  · rw [place_callers_self] at minting
    exact move.minting (h.sound n) minting

/-- A call creates a prefix only by a write after which it still owns the lease. -/
theorem Consistent.created_of_step (h : s.Consistent ro) (step : Step ro s e s')
    (created : (s'.callers n).Created) :
    (s.callers n).Created ∨
      (s.callers n).Minting ro ∧ (s.callers n).landed = true ∧ ro.Owns s.tenancy n := by
  rcases caller_of_step step n with same | ⟨a, d, -, move, rfl⟩
  · exact .inl (same ▸ created)
  · rw [place_callers_self] at created
    rcases move.created (h.sound n) created with before | ⟨minting, landed, held⟩
    · exact .inl before
    · exact .inr ⟨minting, landed, h.owns_of_held minting held⟩

theorem landed_of_step (step : Step ro s e s') (landed : (s'.callers n).landed = true) :
    (s.callers n).landed = true ∨ e = .moved n .wrote := by
  rcases caller_of_step step n with same | ⟨a, d, rfl, move, rfl⟩
  · exact .inl (same ▸ landed)
  · rw [place_callers_self] at landed
    rcases move.landed landed with before | rfl
    · exact .inl before
    · exact .inr rfl

/-- At most one call has created a prefix, and none that could still write one has the lease beside it. -/
structure Exclusive (ro : Roster) (s : Fleet) : Prop where
  stored : ∀ n, (s.callers n).landed = true → (ro.stored? s.tenancy).isSome = true
  alone : ∀ k n, (s.callers k).Minting ro → ro.Owns s.tenancy k → ¬ (s.callers n).Created
  unique : ∀ m n, (s.callers m).Created → (s.callers n).Created → m = n

theorem exclusive_start (ro : Roster) (now : Nat) (b : Backend) : (start now b).Exclusive ro where
  stored _ landed := by cases landed
  alone _ _ _ _ created := by cases created.1
  unique _ _ created _ := by cases created.1

/-- What was created is stored. -/
theorem Exclusive.stored_of_created (h : s.Exclusive ro) (consistent : s.Consistent ro)
    (created : (s.callers n).Created) : (ro.stored? s.tenancy).isSome = true := by
  obtain ⟨minted, v, came⟩ := created
  exact h.stored n ((consistent.sound n).own minted v came).2

theorem Exclusive.step (h : s.Exclusive ro) (consistent : s.Consistent ro) (step : Step ro s e s') :
    s'.Exclusive ro where
  stored n landed := by
    rcases landed_of_step step landed with before | rfl
    · exact isSome_stored?_of_step consistent step (h.stored n before)
    · cases step with
      | move _ move =>
        have now := move.stored?_of_wrote (consistent.sound n)
        simp [now]
  alone k n minting owns created := by
    have moved := consistent.created_of_step step created
    rcases consistent.minting_of_step step minting with before | nothing
    · -- The lease was there before, so nobody had created anything, and nobody else can now.
      have owned := consistent.owns_of_step step before minting owns
      rcases moved with created' | ⟨-, -, owned'⟩
      · exact h.alone k n before owned created'
      · obtain rfl := eq_of_owns owned owned'
        exact not_created_of_minting minting created
    · -- The call has just read that there is nothing, so nobody's write has taken effect.
      have stored : (ro.stored? s.tenancy).isSome = true := by
        rcases moved with created' | ⟨-, landed, -⟩
        · exact h.stored_of_created consistent created'
        · exact h.stored n landed
      rw [nothing] at stored
      cases stored
  unique m n first second := by
    rcases consistent.created_of_step step first with first' | ⟨minting, -, owns⟩
    · rcases consistent.created_of_step step second with second' | ⟨minting, -, owns⟩
      · exact h.unique m n first' second'
      · exact absurd first' (h.alone n m minting owns)
    · rcases consistent.created_of_step step second with second' | ⟨-, -, owns'⟩
      · exact absurd second' (h.alone m n minting owns)
      · exact eq_of_owns owns owns'

end CertWatch.Fleet
