import CertWatch.Proofs.Allocation.Creation

/-!
# Agreement

As long as every write takes effect while its writer has the lease, a prefix that can be used is never
replaced: whoever is to write and has the lease has read, since it was granted, that there is none. So
whatever a call comes to know is what is stored.
-/

namespace CertWatch.Fleet
set_option autoImplicit false

variable {ro : Roster} {s s' : Fleet} {e : Event} {n m k p : Nat} {d : Desk} {a : Turn} {v : String}

/-- Whether an event is no write that takes effect after the lease of its writer has lapsed. -/
def Timely (ro : Roster) (s : Fleet) (e : Event) : Prop := ∀ n, e = .moved n .wrote → ro.Owns s.tenancy n

/-- The steps of a fleet in which no write takes effect after the lease of its writer has lapsed. -/
def TimelyStep (ro : Roster) (s : Fleet) (e : Event) (s' : Fleet) : Prop :=
  Step ro s e s' ∧ Timely ro s e

/-- Whatever is known is stored, and who may write has room to. -/
structure Agreed (ro : Roster) (s : Fleet) : Prop where
  room : ∀ k, (s.callers k).Minting ro → (s.callers k).landed = false → ro.Owns s.tenancy k →
    ro.stored? s.tenancy = none
  others : ∀ k, (s.callers k).Minting ro → (s.callers k).landed = false →
    ro.stored? s.tenancy ≠ some (ro.fresh k).value
  known : ∀ n v, (s.callers n).Knows ro (ro.fresh n) v → ro.stored? s.tenancy = some v
  cells : ∀ p v, (s.cells p).value = some v → ro.stored? s.tenancy = some v

theorem agreed_start (ro : Roster) (now : Nat) (b : Backend) : (start now b).Agreed ro where
  room k minting := by
    rcases minting with ⟨here, -⟩ | ⟨f, here⟩ <;> cases here
  others k minting := by
    rcases minting with ⟨here, -⟩ | ⟨f, here⟩ <;> cases here
  known n v knows := by
    rcases knows with came | ⟨bytes, seen, -⟩ | ⟨landed, -⟩
    · cases came
    · cases seen
    · cases landed
  cells p v found := by cases found

theorem Consistent.knows_of_step (h : s.Consistent ro) (step : Step ro s e s')
    (knows : (s'.callers n).Knows ro (ro.fresh n) v) :
    (s.callers n).Knows ro (ro.fresh n) v ∨ (∃ p, (s.cells p).value = some v) ∨
      ro.stored? s.tenancy = some v ∨ e = .moved n .wrote ∧ v = (ro.fresh n).value := by
  rcases caller_of_step step n with same | ⟨a, d, rfl, move, rfl⟩
  · exact .inl (same ▸ knows)
  · rw [place_callers_self] at knows
    rcases move.knows (h.sound n) knows with before | inCell | stored | ⟨rfl, own⟩
    · exact .inl before
    · exact .inr (.inl ⟨ro.home n, inCell⟩)
    · exact .inr (.inr (.inl stored))
    · exact .inr (.inr (.inr ⟨rfl, own⟩))

theorem cells_of_step (step : Step ro s e s') (found : (s'.cells p).value = some v) :
    (s.cells p).value = some v ∨ ∃ n, (s.callers n).phase.outcome? = some (.ok v) := by
  cases step with
  | around quiet step => exact .inl found
  | @move n a d move =>
    by_cases same : p = ro.home n
    · subst same
      simp only [place, Function.update_self] at found
      rcases move.cell found with before | came
      · exact .inl before
      · exact .inr ⟨n, came⟩
    · simp only [place, Function.update_of_ne same] at found
      exact .inl found

/-- A call that is to write and whose write has not taken effect was there before, or has just read that
nothing is stored. -/
theorem Consistent.pending_of_step (h : s.Consistent ro) (step : Step ro s e s')
    (minting : (s'.callers k).Minting ro) (pending : (s'.callers k).landed = false) :
    (s.callers k).Minting ro ∧ (s.callers k).landed = false ∨
      ro.stored? s.tenancy = none ∧ ∀ n, e ≠ .moved n .wrote := by
  rcases caller_of_step step k with same | ⟨a, d, rfl, move, rfl⟩
  · exact .inl ⟨same ▸ minting, same ▸ pending⟩
  · rw [place_callers_self] at minting pending
    have before : (s.callers k).landed = false := by
      cases landed : (s.callers k).landed with
      | false => rfl
      | true =>
        rw [move.landed_kept (h.sound k) landed] at pending
        cases pending
    rcases move.minting (h.sound k) minting with already | nothing
    · exact .inl ⟨already, before⟩
    · refine .inr ⟨nothing, ?_⟩
      rintro n ⟨⟩
      rw [move.landed_of_wrote] at pending
      cases pending

/-- A write takes effect while its writer has the lease. -/
theorem Agreed.write (h : s.Agreed ro) (consistent : s.Consistent ro)
    (step : Step ro s (.moved n .wrote) s') (owns : ro.Owns s.tenancy n) : s'.Agreed ro := by
  obtain ⟨writing, pending, landed, now⟩ : (∃ f, (s.callers n).phase = .working (.writing f)) ∧
      (s.callers n).landed = false ∧ (s'.callers n).landed = true ∧
      ro.stored? s'.tenancy = some (ro.fresh n).value := by
    cases step with
    | move _ move =>
      obtain ⟨writing, pending⟩ := move.of_wrote
      refine ⟨writing, pending, ?_, move.stored?_of_wrote (consistent.sound n)⟩
      rw [place_callers_self]
      exact move.landed_of_wrote
  have nothing : ro.stored? s.tenancy = none := h.room n (.inr writing) pending owns
  have unknown : ∀ v, ro.stored? s.tenancy ≠ some v := by
    intro v stored
    rw [nothing] at stored
    cases stored
  have other : ∀ k, (s'.callers k).landed = false → k ≠ n := by
    rintro k pending' rfl
    rw [landed] at pending'
    cases pending'
  constructor
  · intro k minting pending' owns'
    -- Nobody else has the lease.
    rcases consistent.pending_of_step step minting pending' with ⟨before, -⟩ | ⟨-, notWritten⟩
    · exact absurd (eq_of_owns (consistent.owns_of_step step before minting owns') owns)
        (other k pending')
    · exact absurd rfl (notWritten n)
  · intro k _ pending' same
    rw [now] at same
    exact other k pending' (ro.fresh_value_injective (Option.some.inj same)).symm
  · intro m v knows
    rcases consistent.knows_of_step step knows with before | ⟨p, inCell⟩ | stored | ⟨wrote, rfl⟩
    · exact absurd (h.known m v before) (unknown v)
    · exact absurd (h.cells p v inCell) (unknown v)
    · exact absurd stored (unknown v)
    · cases wrote
      exact now
  · intro p v found
    rcases cells_of_step step found with before | ⟨m, came⟩
    · exact absurd (h.cells p v before) (unknown v)
    · exact absurd (h.known m v (.inl came)) (unknown v)

/-- Anything else but a write leaves what is stored as it is. -/
theorem Agreed.rest (h : s.Agreed ro) (consistent : s.Consistent ro) (step : Step ro s e s')
    (notWritten : ∀ n, e ≠ .moved n .wrote) : s'.Agreed ro := by
  have kept := stored?_of_step step notWritten
  constructor
  · intro k minting pending owns
    rw [kept]
    rcases consistent.pending_of_step step minting pending with ⟨before, pending'⟩ | ⟨nothing, -⟩
    · exact h.room k before pending' (consistent.owns_of_step step before minting owns)
    · exact nothing
  · intro k minting pending
    rw [kept]
    rcases consistent.pending_of_step step minting pending with ⟨before, pending'⟩ | ⟨nothing, -⟩
    · exact h.others k before pending'
    · simp [nothing]
  · intro m v knows
    rw [kept]
    rcases consistent.knows_of_step step knows with before | ⟨p, inCell⟩ | stored | ⟨wrote, -⟩
    · exact h.known m v before
    · exact h.cells p v inCell
    · exact stored
    · exact absurd wrote (notWritten m)
  · intro p v found
    rw [kept]
    rcases cells_of_step step found with before | ⟨m, came⟩
    · exact h.cells p v before
    · exact h.known m v (.inl came)

theorem Agreed.step (h : s.Agreed ro) (consistent : s.Consistent ro) (step : TimelyStep ro s e s') :
    s'.Agreed ro := by
  obtain ⟨step, timely⟩ := step
  by_cases written : ∃ n, e = .moved n .wrote
  · obtain ⟨n, rfl⟩ := written
    exact h.write consistent step (timely n rfl)
  · exact h.rest consistent step fun n same => written ⟨n, same⟩

end CertWatch.Fleet
