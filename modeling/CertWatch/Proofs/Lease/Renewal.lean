import CertWatch.Proofs.Lease.Exclusion

/-!
# A renewed lease does not lapse

A guard asks for a renewal three times in the length of its lease. One renewal that fails leaves time for
the next: it begins at most two thirds of the length and a millisecond after the call that began the lease
was answered, so if calls are answered within an eighth of the length, it takes effect before the lease has
run out. This is an invariant of the guard alone, about what its renewal waits for; that the service grants
the renewal then follows from what the lease covers.
-/

namespace CertWatch
set_option autoImplicit false

/-- How many periods there are at most between the call that began a lease and the renewal that is
next. -/
def Renewal.rounds : Bool → Nat
  | false => 1
  | true => 2

/-- The renewal of a lease that began at `begun` keeps its times: its timer is due early enough and has not
been due for long, or a renewal was asked for early enough and not long ago. -/
def Renewal.OnTime (length begun now : Nat) (missed : Bool) : Renewal → Prop
  | .waiting t =>
    t.period = length / 3 ∧ now ≤ t.due + Clock.millisecond ∧
      t.due ≤ begun + length / 8 + rounds missed * (length / 3)
  | .asking t since =>
    t.period = length / 3 ∧ now ≤ since + length / 8 ∧
      since ≤ begun + length / 8 + rounds missed * (length / 3) + Clock.millisecond ∧
      t.due ≤ since + length / 3 ∧ since + length / 3 ≤ t.due + Clock.millisecond ∧
      t.due ≤ begun + length / 8 + (rounds missed + 1) * (length / 3)
  | .ended => False

namespace Guard

variable {g : Guard} {now : Nat} {missed : Bool}

/-- Time can go on: the timer has not been due for a millisecond, and the renewal under way has been asked for
within an eighth of the lease. -/
def MayWait (g : Guard) (now : Nat) : Prop :=
  match g.renewal with
  | .waiting t => now < t.due + Clock.millisecond
  | .asking _ since => now < since + g.length / 8
  | .ended => True

/-- The guard keeps its times, and has no reason to think that its lease is lost. -/
structure OnTime (g : Guard) (now : Nat) (missed : Bool) : Prop where
  kept : g.lost = false ∧ g.released = false
  renewal : ∃ begun, g.expiresAt = begun + g.length ∧ g.renewal.OnTime g.length begun now missed

/-- The lease is long enough for a timer to be late. -/
def IsLong (length : Nat) : Prop := 20 * Clock.millisecond ≤ length

theorem period_of_isLong {length : Nat} (long : IsLong length) : period length = length / 3 := by
  simp only [IsLong, period, Clock.millisecond] at *
  omega

theorem length_of_renewCall {g' : Guard} (same : g'.renewCall = g.renewCall) : g'.length = g.length :=
  (Call.renew.inj same).2.2

/-- A guard that keeps its times holds its lease. -/
theorem OnTime.isHeld (long : IsLong g.length) (h : g.OnTime now missed) : g.isHeld now = true := by
  obtain ⟨⟨lost, released⟩, begun, expiry, renewal⟩ := h
  have before : now < g.expiresAt := by
    simp only [IsLong] at long
    cases stands : g.renewal with
    | waiting t =>
      obtain ⟨-, inTime, early⟩ := stands ▸ renewal
      cases missed <;> simp only [Renewal.rounds, Clock.millisecond] at * <;> omega
    | asking t since =>
      obtain ⟨-, answered, early, -⟩ := stands ▸ renewal
      cases missed <;> simp only [Renewal.rounds, Clock.millisecond] at * <;> omega
    | ended => exact (stands ▸ renewal : Renewal.OnTime _ _ _ _ .ended).elim
  simp [Guard.isHeld, lost, released, before]

/-- A lease is granted. -/
theorem onTime_guard {a : Acquisition} {since : Nat} (long : IsLong a.length)
    (answered : now ≤ since + a.length / 8) : (a.guard since now).OnTime now false := by
  have length : (a.guard since now).length = a.length := rfl
  refine ⟨⟨rfl, rfl⟩, since, rfl, period_of_isLong long, ?_⟩
  rw [period_of_isLong long, length]
  simp only [Renewal.rounds]
  omega

/-- Time goes on. -/
theorem OnTime.pass (h : g.OnTime now missed) (mayWait : g.MayWait now) : g.OnTime (now + 1) missed := by
  obtain ⟨kept, begun, expiry, renewal⟩ := h
  refine ⟨kept, begun, expiry, ?_⟩
  unfold MayWait at mayWait
  cases stands : g.renewal with
  | waiting t =>
    rw [stands] at renewal mayWait
    exact ⟨renewal.1, mayWait, renewal.2.2⟩
  | asking t since =>
    rw [stands] at renewal mayWait
    exact ⟨renewal.1, mayWait, renewal.2.2⟩
  | ended => exact (stands ▸ renewal : Renewal.OnTime _ _ _ _ .ended).elim

/-- A renewal is asked for. The tick is not late enough to move the next one. -/
theorem OnTime.tick (h : g.OnTime now missed) {due : Nat} (isDue : g.due? = some due)
    (rung : Clock.reached now due = true) : (g.tick now).OnTime now missed := by
  obtain ⟨kept, begun, expiry, renewal⟩ := h
  have arrived : due ≤ now := Nat.le_trans (Clock.le_ring due) (of_decide_eq_true rung)
  cases stands : g.renewal with
  | waiting t =>
    obtain rfl : t.due = due := by simpa [Guard.due?, stands] using isDue
    obtain ⟨period, inTime, early⟩ := stands ▸ renewal
    have next : (t.take now).due = t.due + g.length / 3 := by
      have notLate : ¬ t.due + Ticker.grace < now := by
        simp only [Ticker.grace, Clock.millisecond] at *
        omega
      rw [Ticker.take, if_neg notLate, period]
    have ticked : g.tick now = { g with renewal := .asking (t.take now) now } := by
      rw [Guard.tick, stands]
    rw [ticked]
    refine ⟨kept, begun, expiry, period, ?_⟩
    rw [next]
    cases missed <;> simp only [Renewal.rounds] at * <;> omega
  | asking t since => simp [Guard.due?, stands] at isDue
  | ended => simp [Guard.due?, stands] at isDue

/-- A renewal was granted: the lease begins anew. -/
theorem OnTime.extended (long : IsLong g.length) (h : g.OnTime now missed) {t : Ticker} {since : Nat}
    (asking : g.renewal = .asking t since) : (g.answered now (.ok true)).1.OnTime now false := by
  obtain ⟨kept, begun, expiry, renewal⟩ := h
  obtain ⟨period, answered, -, atMost, atLeast, -⟩ := asking ▸ renewal
  simp only [Guard.answered, asking]
  refine ⟨kept, since, rfl, period, ?_⟩
  simp only [Renewal.rounds, IsLong, Clock.millisecond] at *
  omega

/-- A renewal failed, after one that was granted: there is time for another. -/
theorem OnTime.failed (long : IsLong g.length) (h : g.OnTime now false) {t : Ticker} {since : Nat}
    (asking : g.renewal = .asking t since) (f : Failure) : (g.answered now (.error f)).1.OnTime now true := by
  have held := h.isHeld long
  simp only [Guard.isHeld, Bool.and_eq_true, decide_eq_true_eq] at held
  obtain ⟨kept, begun, expiry, renewal⟩ := h
  obtain ⟨period, answered, -, -, atLeast, early⟩ := asking ▸ renewal
  simp only [Guard.answered, asking, Nat.not_le.2 held.2, if_false]
  refine ⟨kept, begun, expiry, period, ?_⟩
  simp only [Renewal.rounds, IsLong, Clock.millisecond] at *
  omega

end Guard

namespace Tenancy

variable {s : Tenancy} {owner : Nat → String} {n : Nat} {g : Guard} {done? : Option Bool}

/-- The service renews a lease that has not run out as far as its guard knows. -/
theorem answer_renewCall (h : s.Consistent owner) (here : s.tenants n = .holding g done?)
    (held : g.isHeld s.now = true) : s.answer g.renewCall = true := by
  have proper : (Tenant.holding g done?).Proper (owner n) s.now := here ▸ (h.sound n).proper
  have owned : s.backend.leases.owner? s.now g.resource = some (owner n) :=
    (h.of_holds ⟨g, by rw [here]; rfl, rfl, held⟩).1
  rw [← proper.1] at owned
  show (s.backend.leases.renew s.now g.resource g.owner g.length).2 = true
  rw [Leases.renew, if_pos owned]

/-- And it grants the lease to nobody else. -/
theorem answer_tryAcquire (h : s.Consistent owner) (here : s.tenants n = .holding g done?)
    (held : g.isHeld s.now = true) {other : String} (ne : other ≠ g.owner) (length : Nat) :
    s.answer (.tryAcquire g.resource other length) = false := by
  have proper : (Tenant.holding g done?).Proper (owner n) s.now := here ▸ (h.sound n).proper
  have owned := (h.of_holds ⟨g, by rw [here]; rfl, rfl, held⟩).1
  have taken : ¬ s.backend.leases.allows s.now g.resource other = true := fun free =>
    ne ((Leases.allows_iff.1 free _ owned).symm.trans proper.1.symm)
  show (s.backend.leases.tryAcquire s.now g.resource other length).2 = false
  rw [Leases.tryAcquire, if_neg taken]

end Tenancy

/-- A tenancy, and whether the last renewal that one of its tenants heard of had failed. -/
structure Upkeep where
  tenancy : Tenancy
  missed : Bool := false

namespace Upkeep

variable {owner : Nat → String} {n : Nat} {u u' : Upkeep} {e : Tenancy.Event}

/-- What is asked of the timers and of the lease service, as far as they matter to a tenant: a timer is taken
at most a millisecond late, its rounding to whole milliseconds included, the call that is granted and every
renewal are answered within an eighth of the lease, and no two renewals in a row fail. -/
def Allows (u : Upkeep) (n : Nat) : Tenancy.Event → Prop
  | .passed => ∀ g done?, u.tenancy.tenants n = .holding g done? → g.MayWait u.tenancy.now
  | .judged m (.ok true) => m = n → ∀ a since done?, u.tenancy.tenants n = .asking a since done? →
      u.tenancy.now ≤ since + a.length / 8
  | .heard m (.error _) => m = n → u.missed = false
  | _ => True

/-- Whether the last renewal had failed, after something has happened. -/
def missedAfter (u : Upkeep) (n : Nat) : Tenancy.Event → Bool
  | .heard m (.ok _) => if m = n then false else u.missed
  | .heard m (.error _) => if m = n then true else u.missed
  | _ => u.missed

/-- A step of a tenancy that does what is asked of it. -/
inductive Step (owner : Nat → String) (n : Nat) : Upkeep → Tenancy.Event → Upkeep → Prop where
  | step {u : Upkeep} {e : Tenancy.Event} {s : Tenancy} (step : Tenancy.Step owner u.tenancy e s)
      (allowed : u.Allows n e) : Step owner n u e ⟨s, u.missedAfter n e⟩

end Upkeep

/-- A tenant with a long lease keeps its times, and was not refused a renewal. Before it has a lease, no renewal
has failed. -/
def Tenant.Kept (now : Nat) (missed : Bool) : Tenant → Prop
  | .holding g done? => Guard.IsLong g.length → g.OnTime now missed ∧ done? ≠ some false
  | .leaving .. => True
  | .gone => True
  | _ => missed = false

/-- Time goes on. -/
theorem Tenant.Kept.pass {t : Tenant} {now : Nat} {missed : Bool} (h : t.Kept now missed)
    (mayWait : ∀ g done?, t = .holding g done? → g.MayWait now) : t.Kept (now + 1) missed := by
  cases t with
  | holding g done? => exact fun long => ⟨(h long).1.pass (mayWait g done? rfl), (h long).2⟩
  | leaving g done? => trivial
  | gone => trivial
  | absent => exact h
  | asking a since done? => exact h
  | pausing a next => exact h

namespace Upkeep

variable {owner : Nat → String} {n m : Nat} {u u' : Upkeep} {e : Tenancy.Event} {t : Tenant} {missed : Bool}

/-- What holds between any two steps. -/
structure Sound (owner : Nat → String) (n : Nat) (u : Upkeep) : Prop where
  consistent : u.tenancy.Consistent owner
  kept : (u.tenancy.tenants n).Kept u.tenancy.now u.missed

/-- Whichever tenant it is that goes on, the one in question keeps its times. -/
theorem kept_update (h : u.Sound owner n) (others : m ≠ n → missed = u.missed)
    (own : m = n → t.Kept u.tenancy.now missed) :
    (Function.update u.tenancy.tenants m t n).Kept u.tenancy.now missed := by
  by_cases same : m = n
  · subst same
    rw [Function.update_self]
    exact own rfl
  · rw [Function.update_of_ne (Ne.symm same), others same]
    exact h.kept

theorem Sound.kept_of (h : u.Sound owner n) (here : u.tenancy.tenants n = t) : t.Kept u.tenancy.now u.missed :=
  here ▸ h.kept

/-- A tenant hears the answer to an attempt. -/
theorem kept_judged (h : u.Sound owner n) {a : Acquisition} {since : Nat} {done? : Option Bool}
    (here : u.tenancy.tenants n = .asking a since done?) (answer : Except Failure Bool)
    (allowed : u.Allows n (.judged n answer)) :
    (Tenant.judged a since u.tenancy.now answer).Kept u.tenancy.now u.missed := by
  have fresh : u.missed = false := h.kept_of here
  rw [fresh]
  match answer with
  | .error f => trivial
  | .ok true => exact fun long => ⟨Guard.onTime_guard long (allowed rfl a since done? here), nofun⟩
  | .ok false =>
    by_cases pause : a.mayPause u.tenancy.now = true <;> simp [Tenant.judged, Acquisition.judge, pause, Tenant.Kept]

/-- A guard hears the answer to a renewal, which cannot be a refusal. -/
theorem kept_answered (h : u.Sound owner n) {g : Guard} {done? : Option Bool} {ticker : Ticker} {since : Nat}
    (here : u.tenancy.tenants n = .holding g done?) (asking : g.renewal = .asking ticker since)
    (answer : Except Failure Bool) (told : Told done? answer) (allowed : u.Allows n (.heard n answer)) :
    (Tenant.holding (g.answered u.tenancy.now answer).1 none).Kept u.tenancy.now
      (u.missedAfter n (.heard n answer)) := by
  intro long
  rw [Guard.length_of_renewCall (g.renewCall_answered u.tenancy.now answer)] at long
  obtain ⟨onTime, notRefused⟩ := h.kept_of here long
  refine ⟨?_, nofun⟩
  match answer with
  | .error f =>
    have fresh : u.missed = false := allowed rfl
    rw [fresh] at onTime
    simpa [missedAfter] using onTime.failed long asking f
  | .ok true => simpa [missedAfter] using onTime.extended long asking
  | .ok false => exact absurd told notRefused

theorem Sound.step (distinct : Function.Injective owner) (h : u.Sound owner n) (step : Step owner n u e u') :
    u'.Sound owner n := by
  obtain ⟨step, allowed⟩ := step
  refine ⟨h.consistent.step distinct step, ?_⟩
  cases step with
  | pass => exact h.kept.pass allowed
  | ask m new own =>
    refine kept_update h (fun _ => rfl) fun same => ?_
    subst same
    exact (h.kept_of new :)
  | attempt m here =>
    refine kept_update h (fun _ => rfl) fun same => ?_
    subst same
    exact (h.kept_of here :)
  | judge m here r told =>
    refine kept_update h (fun _ => rfl) fun same => ?_
    subst same
    exact kept_judged h here r allowed
  | resume m here due =>
    refine kept_update h (fun _ => rfl) fun same => ?_
    subst same
    exact (h.kept_of here :)
  | callOff m here => exact kept_update h (fun _ => rfl) fun _ => trivial
  | @tick m g done? due here isDue rung =>
    refine kept_update h (fun _ => rfl) fun same long => ?_
    subst same
    rw [Guard.length_of_renewCall (g.renewCall_tick u.tenancy.now)] at long
    exact ⟨(h.kept_of here long).1.tick isDue rung, nofun⟩
  | @renew m g ticker since here asking =>
    refine kept_update h (fun _ => rfl) fun same long => ?_
    subst same
    obtain ⟨onTime, -⟩ := h.kept_of here long
    refine ⟨onTime, ?_⟩
    rw [Tenancy.answer_renewCall h.consistent here (onTime.isHeld long)]
    nofun
  | hear m here asking r told =>
    refine kept_update h (fun other => ?_) fun same => ?_
    · cases r <;> simp [missedAfter, other]
    · subst same
      exact kept_answered h here asking r told allowed
  | release m here => exact kept_update h (fun _ => rfl) fun _ => trivial
  | drop m here lastOnes => exact kept_update h (fun _ => rfl) fun _ => trivial
  | giveUp m here => exact kept_update h (fun _ => rfl) fun _ => trivial
  | finish m here r told => exact kept_update h (fun _ => rfl) fun _ => trivial
  | land loose => exact h.kept
  | outside other => exact h.kept

/-- **Renewal.** In every run of tenants with distinct owners in which a tenant's timers are taken and its calls
are answered in time, and no two of its renewals in a row fail: as long as the tenant has its guard, a lease of
at least twenty milliseconds is held, and the service agrees. A renewal that takes effect is granted, none was
refused, and a request of any other owner for the resource is. -/
theorem renewed_while_held (distinct : Function.Injective owner) {now : Nat} {b : Backend}
    (run : Run (Step owner n) ⟨Tenancy.start now b, false⟩ u) {g : Guard} {done? : Option Bool}
    (here : u.tenancy.tenants n = .holding g done?) (long : 20 * Clock.millisecond ≤ g.length) :
    g.isHeld u.tenancy.now = true ∧ u.tenancy.owner? g.resource = some g.owner ∧
      u.tenancy.answer g.renewCall = true ∧ (∀ u', ¬ Step owner n u (.heard n (.ok false)) u') ∧
      ∀ other length, other ≠ g.owner → u.tenancy.answer (.tryAcquire g.resource other length) = false := by
  have start : Sound owner n ⟨Tenancy.start now b, false⟩ := ⟨Tenancy.consistent_start owner now b, rfl⟩
  have sound : u.Sound owner n := run.keeps (fun _ _ _ h step => h.step distinct step) start
  obtain ⟨onTime, notRefused⟩ := sound.kept_of here long
  have held := onTime.isHeld long
  have proper : (Tenant.holding g done?).Proper (owner n) u.tenancy.now := here ▸ (sound.consistent.sound n).proper
  refine ⟨held, ?_, Tenancy.answer_renewCall sound.consistent here held, ?_, fun other length ne =>
    Tenancy.answer_tryAcquire sound.consistent here held ne length⟩
  · rw [proper.1]
    exact (sound.consistent.of_holds ⟨g, by rw [here]; rfl, rfl, held⟩).1
  · rintro _ ⟨step, -⟩
    cases step with
    | hear _ there _ _ told =>
      rw [here] at there
      cases there
      exact notRefused told

/-- Time goes on as long as a guard waits for its timer. -/
theorem waits {g : Guard} {done? : Option Bool} {ticker : Ticker}
    (here : u.tenancy.tenants n = .holding g done?) (waiting : g.renewal = .waiting ticker) (length : Nat)
    (early : u.tenancy.now + length ≤ ticker.due + Clock.millisecond) :
    Run (Step owner n) u ⟨{ u.tenancy with now := u.tenancy.now + length }, u.missed⟩ := by
  induction length with
  | zero => exact Run.refl u
  | succ length ih =>
    refine (ih (by omega)).tail (.step .pass ?_)
    intro g' done?' there
    obtain ⟨rfl, rfl⟩ := Tenant.holding.inj (here.symm.trans there)
    simp only [Guard.MayWait, waiting]
    omega

/-- A lease of 24 milliseconds is granted at once, the renewal after 8 milliseconds fails, the one after 16 is
granted, and after 24 the lease is held. -/
theorem renewed_while_held_after_failure :
    ∃ u g, Run (Step (fun n => String.ofList (List.replicate n 'a')) 1) ⟨Tenancy.start 0 {}, false⟩ u ∧
      u.tenancy.tenants 1 = .holding g none ∧ g.length = 24000000 ∧ u.tenancy.now = 24000000 ∧
      g.isHeld u.tenancy.now = true ∧ u.tenancy.owner? "r" = some "a" := by
  have asked : Step (fun n => String.ofList (List.replicate n 'a')) 1 ⟨Tenancy.start 0 {}, false⟩ (.asked 1) _ :=
    .step (.ask 1 (a := ⟨"r", "a", 24000000, 5, none⟩) rfl rfl) trivial
  have granted := (Run.single asked).tail (.step (.attempt 1 rfl) trivial)
    |>.tail (.step (.judge 1 rfl (.ok true) rfl) (by
      rintro - a since done? ⟨⟩
      exact Nat.zero_le _))
  have ticked := (granted.trans (waits rfl rfl 8000000 (by decide))).tail (.step (.tick 1 rfl rfl (by decide)) trivial)
  have failed := ticked.tail (.step (.hear 1 rfl rfl (.error .cancelled) trivial) fun _ => rfl)
  have ticked' := (failed.trans (waits rfl rfl 8000000 (by decide))).tail (.step (.tick 1 rfl rfl (by decide)) trivial)
  have renewed := (ticked'.tail (.step (.renew 1 rfl rfl) trivial)).tail
    (.step (.hear 1 rfl rfl (.ok true) rfl) trivial)
  have run := renewed.trans (waits rfl rfl 8000000 (by decide))
  obtain ⟨held, owned, -⟩ := renewed_while_held (Tenancy.ofList_replicate_injective 'a') run rfl (by decide)
  exact ⟨_, _, run, rfl, rfl, rfl, held, owned⟩

end Upkeep
end CertWatch
