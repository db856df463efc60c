import CertWatch.Proofs.Lease.Tenancy

/-!
# What tenants count on

A guard counts from the beginning of the call that granted or renewed its lease, and the service from
when that call took effect, so the guard gives up first. What has to be kept is that nobody takes a
lease away from a tenant before the instant that its guard knows of or may still come to know of, and
that the calls under way under its owner are renewals with the terms of its guard.
-/

namespace CertWatch
set_option autoImplicit false

namespace Tenant

/-- The instants until which a tenant counts on its lease, with the resource and the length of the
lease: those that its guard knows of, and those that it will come to know of if it hears the answer to
the call under way. -/
def Claims : Tenant → String → Nat → Nat → Prop
  | asking a since done?, r, length, instant =>
    done? = some true ∧ r = a.resource ∧ length = a.length ∧ instant = since + a.length
  | holding g done?, r, length, instant =>
    r = g.resource ∧ length = g.length ∧ (instant = g.expiresAt ∨
      done? = some true ∧ ∃ ticker since, g.renewal = .asking ticker since ∧ instant = since + g.length)
  | _, _, _, _ => False

/-- What a tenant knows of its owner, of the beginning of its call under way and of its guard. -/
def Proper (owner : String) (now : Nat) : Tenant → Prop
  | asking a since _ => a.owner = owner ∧ since ≤ now
  | pausing a _ => a.owner = owner
  | holding g _ => g.owner = owner ∧ ∀ ticker since, g.renewal = .asking ticker since → since ≤ now
  | leaving g _ => g.owner = owner ∧ g.released = true
  | _ => True

/-- The calls under way under a tenant's owner that nobody waits for. -/
def Leaves : Tenant → Call → Prop
  | holding g _, c => c = g.renewCall
  | leaving .., _ => True
  | gone, _ => True
  | _, _ => False

/-- What holds of a tenant between any two steps. -/
structure Sound (owner : String) (now : Nat) (ls : Leases) (t : Tenant) : Prop where
  proper : t.Proper owner now
  /-- No claim reaches further than the lease would if it were renewed now. -/
  reach : ∀ r length instant, t.Claims r length instant → instant ≤ now + length
  covers : ∀ r length instant, t.Claims r length instant → ls.Covers now r owner instant

variable {owner : String} {now : Nat} {ls : Leases} {t : Tenant}

theorem Proper.later {later : Nat} (h : t.Proper owner now) (le : now ≤ later) :
    t.Proper owner later := by
  cases t with
  | asking a since done? => exact ⟨h.1, Nat.le_trans h.2 le⟩
  | holding g done? => exact ⟨h.1, fun ticker since asking => Nat.le_trans (h.2 ticker since asking) le⟩
  | absent => trivial
  | pausing a next => exact h
  | leaving g done? => exact h
  | gone => trivial

theorem Sound.later {later : Nat} (h : t.Sound owner now ls) (le : now ≤ later) :
    t.Sound owner later ls where
  proper := h.proper.later le
  reach r length instant claims := by
    have := h.reach r length instant claims
    omega
  covers r length instant claims := (h.covers r length instant claims).later le

/-- A tenant that claims no more than it did before is as sound as before. -/
theorem Sound.narrow {t' : Tenant} (h : t.Sound owner now ls) (proper : t'.Proper owner now)
    (narrower : ∀ r length instant, t'.Claims r length instant → t.Claims r length instant) :
    t'.Sound owner now ls where
  proper := proper
  reach r length instant claims := h.reach r length instant (narrower r length instant claims)
  covers r length instant claims := h.covers r length instant (narrower r length instant claims)

theorem lessee_of_mem_stray {c : Call} (h : t.Proper owner now) (under : c ∈ t.stray) :
    c.lessee? = some owner := by
  unfold stray at under
  split at under
  · obtain rfl := List.mem_singleton.1 under
    exact congrArg some h.1
  · split at under
    · obtain rfl := List.mem_singleton.1 under
      exact congrArg some h.1
    · cases under
  · obtain rfl := List.mem_singleton.1 under
    exact congrArg some h.1
  · cases under

theorem mem_stray_holding {g : Guard} {done? : Option Bool} {c : Call}
    (under : c ∈ (holding g done?).stray) : c = g.renewCall := by
  cases done? with
  | some granted => cases under
  | none =>
    simp only [stray] at under
    split at under
    · exact List.mem_singleton.1 under
    · cases under

/-- As long as a tenant has something to lose, the calls it has left behind renew it. -/
theorem renewal_of_leaves {c : Call} (proper : t.Proper owner now) (left : t.Leaves c) {r : String}
    {length instant : Nat} (claims : t.Claims r length instant) :
    ∃ r', c = .renew r' owner length := by
  cases t with
  | holding g done? =>
    obtain ⟨-, rfl, -⟩ := claims
    refine ⟨g.resource, ?_⟩
    rw [← proper.1]
    exact left
  | asking a since done? => cases left
  | absent => cases left
  | pausing a next => cases left
  | leaving g done? => cases claims
  | gone => cases claims

/-- After the answer to an attempt: the lease was granted, it was refused, or the acquisition ended. -/
theorem judged_cases (a : Acquisition) (since now : Nat) {done? : Option Bool} {r : Except Failure Bool}
    (told : Told done? r) :
    done? = some true ∧ judged a since now r = holding (a.guard since now) none ∨
      done? = some false ∧ (∃ next, judged a since now r = pausing a next) ∨
      judged a since now r = gone := by
  unfold judged Acquisition.judge
  cases r with
  | error f => exact .inr (.inr rfl)
  | ok granted =>
    cases granted with
    | true => exact .inl ⟨told, rfl⟩
    | false =>
      by_cases pause : a.mayPause now = true
      · refine .inr (.inl ⟨told, Clock.afterPause now a.retry, ?_⟩)
        simp [pause]
      · refine .inr (.inr ?_)
        simp [pause]

end Tenant

namespace Guard

@[simp] theorem renewCall_tick (g : Guard) (now : Nat) : (g.tick now).renewCall = g.renewCall := by
  unfold tick
  split <;> rfl

@[simp] theorem renewCall_answered (g : Guard) (now : Nat) (r : Except Failure Bool) :
    (g.answered now r).1.renewCall = g.renewCall := by
  unfold answered
  repeat' split
  all_goals rfl

/-- An answer to a renewal leaves a guard that asks for nothing, with the expiry that it had or with
that of a renewal that was granted. -/
theorem answered_asking {g : Guard} {ticker : Ticker} {since : Nat}
    (asking : g.renewal = .asking ticker since) (now : Nat) {done? : Option Bool}
    {r : Except Failure Bool} (told : Told done? r) :
    (∀ ticker since, (g.answered now r).1.renewal ≠ .asking ticker since) ∧
      ((g.answered now r).1.expiresAt = g.expiresAt ∨
        done? = some true ∧ (g.answered now r).1.expiresAt = since + g.length) := by
  unfold answered
  rw [asking]
  cases r with
  | ok granted =>
    cases granted with
    | true => exact ⟨nofun, .inr ⟨told, rfl⟩⟩
    | false => exact ⟨nofun, .inl rfl⟩
  | error f =>
    dsimp only
    split
    · exact ⟨nofun, .inl rfl⟩
    · exact ⟨nofun, .inl rfl⟩

end Guard

namespace Tenancy

/-- What holds between any two steps. -/
structure Consistent (owner : Nat → String) (s : Tenancy) : Prop where
  sound : ∀ n, (s.tenants n).Sound (owner n) s.now s.backend.leases
  loose : ∀ n, ∀ c ∈ s.loose, c.lessee? = some (owner n) → (s.tenants n).Leaves c

section Steps

variable {owner : Nat → String} {s s' : Tenancy} {n : Nat} {t : Tenant} {c : Call} {e : Event}

theorem Consistent.perform (h : s.Consistent owner)
    (terms : ∀ m, c.lessee? = some (owner m) → ∀ r length instant,
      (s.tenants m).Claims r length instant → ∃ r', c = .renew r' (owner m) length) :
    (s.perform c).Consistent owner := by
  refine ⟨fun m => ⟨(h.sound m).proper, (h.sound m).reach, ?_⟩, h.loose⟩
  intro r length instant claims
  apply Backend.covers_perform ((h.sound m).covers r length instant claims)
  intro own
  obtain ⟨r', renewal⟩ := terms m own r length instant claims
  exact ⟨r', length, renewal, (h.sound m).reach r length instant claims⟩

theorem Consistent.mark (h : s.Consistent owner)
    (sound : t.Sound (owner n) s.now s.backend.leases)
    (leaves : ∀ c, (s.tenants n).Leaves c → t.Leaves c) : (s.mark n t).Consistent owner := by
  constructor
  · intro m
    by_cases same : m = n
    · subst same
      simpa [Tenancy.mark] using sound
    · simpa [Tenancy.mark, same] using h.sound m
  · intro m c loose own
    by_cases same : m = n
    · subst same
      simpa [Tenancy.mark] using leaves c (h.loose m c loose own)
    · simpa [Tenancy.mark, same] using h.loose m c loose own

theorem Consistent.put (distinct : Function.Injective owner) (h : s.Consistent owner)
    (sound : t.Sound (owner n) s.now s.backend.leases)
    (leaves : ∀ c, (s.tenants n).Leaves c ∨ c ∈ (s.tenants n).stray → t.Leaves c) :
    (s.put n t).Consistent owner := by
  have marked := h.mark sound fun c left => leaves c (.inl left)
  refine ⟨marked.sound, ?_⟩
  intro m c loose own
  rcases List.mem_append.1 loose with loose | stray
  · exact marked.loose m c loose own
  · have lessee := Tenant.lessee_of_mem_stray (h.sound n).proper stray
    obtain rfl : m = n := distinct (Option.some.inj (own.symm.trans lessee))
    simpa [Tenancy.put] using leaves c (.inr stray)

/-- A guard that changed only in what it knows about its renewal leaves the same calls behind. -/
theorem leaves_holding {g g' : Guard} {done? done?' : Option Bool} (terms : g'.renewCall = g.renewCall)
    {c : Call} (left : (Tenant.holding g done?).Leaves c ∨ c ∈ (Tenant.holding g done?).stray) :
    (Tenant.holding g' done?').Leaves c := by
  show c = g'.renewCall
  rw [terms]
  rcases left with left | under
  · exact left
  · exact Tenant.mem_stray_holding under

/-- An attempt takes effect. -/
theorem Consistent.attempt (distinct : Function.Injective owner) (h : s.Consistent owner)
    {a : Acquisition} {since : Nat} (here : s.tenants n = .asking a since none) :
    ((s.perform a.attempt).mark n (.asking a since (some (s.answer a.attempt)))).Consistent owner := by
  obtain ⟨own, before⟩ : (Tenant.asking a since none).Proper (owner n) s.now := here ▸ (h.sound n).proper
  have performed : (s.perform a.attempt).Consistent owner := by
    apply h.perform
    intro m lessee r length instant claims
    obtain rfl : m = n := distinct (own ▸ (Option.some.inj lessee).symm)
    rw [here] at claims
    cases claims.1
  refine performed.mark ⟨⟨own, before⟩, ?_, ?_⟩ ?_
  · rintro _ _ _ ⟨-, -, rfl, rfl⟩
    exact Nat.add_le_add_right before _
  · rintro _ _ _ ⟨granted, rfl, rfl, rfl⟩
    rw [← own]
    exact Leases.covers_tryAcquire (Option.some.inj granted) (Nat.add_le_add_right before _)
  · intro c left
    exact (here ▸ left : (Tenant.asking a since none).Leaves c)

/-- A renewal takes effect. -/
theorem Consistent.renew (distinct : Function.Injective owner) (h : s.Consistent owner)
    {g : Guard} (here : s.tenants n = .holding g none) :
    ((s.perform g.renewCall).mark n (.holding g (some (s.answer g.renewCall)))).Consistent owner := by
  have sound : (Tenant.holding g none).Sound (owner n) s.now s.backend.leases := here ▸ h.sound n
  obtain ⟨own, since_le⟩ := sound.proper
  have known : (Tenant.holding g none).Claims g.resource g.length g.expiresAt := ⟨rfl, rfl, .inl rfl⟩
  have performed : (s.perform g.renewCall).Consistent owner := by
    apply h.perform
    intro m lessee r length instant claims
    obtain rfl : m = n := distinct (own ▸ (Option.some.inj lessee).symm)
    rw [here] at claims
    exact ⟨g.resource, by rw [claims.2.1, ← own]; rfl⟩
  have after : (s.perform g.renewCall).tenants n = .holding g none := here
  refine performed.mark ⟨⟨own, since_le⟩, ?_, ?_⟩ ?_
  · rintro _ _ _ ⟨rfl, rfl, rfl | ⟨-, ticker, since, asking, rfl⟩⟩
    · exact sound.reach _ _ _ known
    · exact Nat.add_le_add_right (since_le _ _ asking) _
  · rintro _ _ _ ⟨rfl, rfl, rfl | ⟨granted, ticker, since, asking, rfl⟩⟩
    · exact (performed.sound n).covers _ _ _ (after ▸ known)
    · rw [← own]
      exact Leases.covers_renew (Option.some.inj granted) (Nat.add_le_add_right (since_le _ _ asking) _)
  · intro c left
    rw [after] at left
    exact leaves_holding rfl (.inl left)

/-- A guard hears the answer to a renewal. -/
theorem Consistent.hear (distinct : Function.Injective owner) (h : s.Consistent owner)
    {g : Guard} {done? : Option Bool} {ticker : Ticker} {since : Nat}
    (here : s.tenants n = .holding g done?) (asking : g.renewal = .asking ticker since)
    {r : Except Failure Bool} (told : Told done? r) :
    (s.put n (.holding (g.answered s.now r).1 none)).Consistent owner := by
  have sound : (Tenant.holding g done?).Sound (owner n) s.now s.backend.leases := here ▸ h.sound n
  obtain ⟨quiet, expiry⟩ := Guard.answered_asking asking s.now told
  have terms := g.renewCall_answered s.now r
  generalize (g.answered s.now r).1 = g' at quiet expiry terms
  obtain ⟨resource, own, length⟩ : g'.resource = g.resource ∧ g'.owner = g.owner ∧ g'.length = g.length := by
    simpa [Guard.renewCall] using terms
  have old : ∀ r length instant, (Tenant.holding g' none).Claims r length instant →
      (Tenant.holding g done?).Claims r length instant := by
    rintro _ _ _ ⟨rfl, rfl, rfl | ⟨impossible, -⟩⟩
    · refine ⟨resource, length, ?_⟩
      rcases expiry with same | ⟨granted, extended⟩
      · exact .inl same
      · exact .inr ⟨granted, ticker, since, asking, extended⟩
    · cases impossible
  refine h.put distinct (sound.narrow ⟨own.trans sound.proper.1, ?_⟩ old) ?_
  · intro ticker since again
    exact absurd again (quiet ticker since)
  · intro c left
    rw [here] at left
    exact leaves_holding terms left

/-- A tenant hears the answer to an attempt. -/
theorem Consistent.judge (distinct : Function.Injective owner) (h : s.Consistent owner)
    {a : Acquisition} {since : Nat} {done? : Option Bool} (here : s.tenants n = .asking a since done?)
    {r : Except Failure Bool} (told : Told done? r) :
    (s.put n (.judged a since s.now r)).Consistent owner := by
  have sound : (Tenant.asking a since done?).Sound (owner n) s.now s.backend.leases := here ▸ h.sound n
  rcases Tenant.judged_cases a since s.now told with ⟨rfl, granted⟩ | ⟨rfl, next, refused⟩ | ended
  · rw [granted]
    refine h.put distinct (sound.narrow ⟨sound.proper.1, nofun⟩ ?_) ?_
    · rintro _ _ _ ⟨rfl, rfl, rfl | ⟨impossible, -⟩⟩
      · exact ⟨rfl, rfl, rfl, rfl⟩
      · cases impossible
    · intro c left
      rw [here] at left
      rcases left with impossible | impossible <;> cases impossible
  · rw [refused]
    refine h.put distinct (sound.narrow sound.proper.1 nofun) ?_
    intro c left
    rw [here] at left
    rcases left with impossible | impossible <;> cases impossible
  · rw [ended]
    exact h.put distinct (sound.narrow trivial nofun) fun _ _ => trivial

/-- A guard asks for a renewal. -/
theorem Consistent.tick (h : s.Consistent owner) {g : Guard} {done? : Option Bool}
    (here : s.tenants n = .holding g done?) {due : Nat} (isDue : g.due? = some due) :
    (s.mark n (.holding (g.tick s.now) none)).Consistent owner := by
  have sound : (Tenant.holding g done?).Sound (owner n) s.now s.backend.leases := here ▸ h.sound n
  obtain ⟨ticker, waiting⟩ : ∃ ticker, g.renewal = .waiting ticker := by
    unfold Guard.due? at isDue
    split at isDue
    · exact ⟨_, ‹_›⟩
    · cases isDue
  have ticked : g.tick s.now = { g with renewal := .asking (ticker.take s.now) s.now } := by
    unfold Guard.tick
    rw [waiting]
  rw [ticked]
  refine h.mark (sound.narrow ⟨sound.proper.1, ?_⟩ ?_) ?_
  · rintro _ _ ⟨⟩
    exact Nat.le_refl _
  · rintro _ _ _ ⟨rfl, rfl, rfl | ⟨impossible, -⟩⟩
    · exact ⟨rfl, rfl, .inl rfl⟩
    · cases impossible
  · intro c left
    rw [here] at left
    exact left

/-- A tenant with nothing to lose goes on to ask for a lease. -/
theorem Consistent.ask (distinct : Function.Injective owner) (h : s.Consistent owner) {a : Acquisition}
    (own : a.owner = owner n) (nothing : ∀ c, ¬ (s.tenants n).Leaves c ∧ c ∉ (s.tenants n).stray) :
    (s.put n (.asking a s.now none)).Consistent owner := by
  refine h.put distinct ((h.sound n).narrow ⟨own, Nat.le_refl _⟩ ?_) ?_
  · rintro _ _ _ ⟨impossible, -⟩
    cases impossible
  · intro c left
    rcases left with left | left
    · exact absurd left (nothing c).1
    · exact absurd left (nothing c).2

/-- A tenant comes to its end. -/
theorem Consistent.end_ (distinct : Function.Injective owner) (h : s.Consistent owner) :
    (s.put n .gone).Consistent owner :=
  h.put distinct ((h.sound n).narrow trivial nofun) fun _ _ => trivial

/-- A call that a tenant at its end still makes takes nothing away. -/
theorem Consistent.last (h : s.Consistent owner) {last : List Call}
    (late : ∀ c ∈ last, ∀ m, c.lessee? = some (owner m) → (s.tenants m).Leaves c) :
    { s with loose := s.loose ++ last }.Consistent owner := by
  refine ⟨h.sound, fun m c loose own => ?_⟩
  rcases List.mem_append.1 loose with loose | isLast
  · exact h.loose m c loose own
  · exact late c isLast m own

/-- A step keeps what holds between steps. -/
theorem Consistent.step (distinct : Function.Injective owner) (h : s.Consistent owner)
    (step : Step owner s e s') : s'.Consistent owner := by
  cases step with
  | pass => exact ⟨fun m => (h.sound m).later (Nat.le_succ _), h.loose⟩
  | ask n new own =>
    apply h.ask distinct own
    intro c
    rw [new]
    exact ⟨nofun, nofun⟩
  | attempt n here => exact h.attempt distinct here
  | judge n here r told => exact h.judge distinct here told
  | resume n here due =>
    refine h.ask distinct (here ▸ (h.sound n).proper : (Tenant.pausing _ _).Proper (owner n) s.now) fun c => ?_
    rw [here]
    exact ⟨nofun, nofun⟩
  | callOff n here => exact h.end_ distinct
  | tick n here isDue rung => exact h.tick here isDue
  | renew n here asking => exact h.renew distinct here
  | hear n here asking r told => exact h.hear distinct here asking told
  | @release n g done? here =>
    have sound : (Tenant.holding g done?).Sound (owner n) s.now s.backend.leases := here ▸ h.sound n
    exact h.put distinct (sound.narrow ⟨sound.proper.1, rfl⟩ nofun) fun _ _ => trivial
  | @drop n g done? here last lastOnes =>
    have own : g.owner = owner n := (here ▸ (h.sound n).proper : (Tenant.holding g done?).Proper _ _).1
    apply (h.end_ distinct).last
    intro c isLast m lessee
    have call : c = g.releaseCall := by
      rcases lastOnes with rfl | rfl
      · unfold Guard.dropCall? at isLast
        split at isLast
        · cases isLast
        · exact List.mem_singleton.1 isLast
      · cases isLast
    subst call
    obtain rfl : m = n := distinct (own ▸ (Option.some.inj lessee).symm)
    simp [Tenancy.put, Tenant.Leaves]
  | @giveUp n g here =>
    have proper : (Tenant.leaving g none).Proper (owner n) s.now := here ▸ (h.sound n).proper
    have performed : (s.perform g.releaseCall).Consistent owner := by
      apply h.perform
      intro m lessee r length instant claims
      obtain rfl : m = n := distinct (proper.1 ▸ (Option.some.inj lessee).symm)
      rw [here] at claims
      cases claims
    exact performed.mark ((performed.sound n).narrow proper nofun) fun _ _ => trivial
  | finish n here r told => exact h.end_ distinct
  | @land c loose =>
    have performed : (s.perform c).Consistent owner := by
      apply h.perform
      intro m lessee r length instant claims
      exact Tenant.renewal_of_leaves (h.sound m).proper (h.loose m c loose lessee) claims
    exact ⟨performed.sound, fun m c' loose' own => h.loose m c' (List.mem_of_mem_erase loose') own⟩
  | @outside c other =>
    apply h.perform
    intro m lessee
    exact absurd lessee (other m)

end Steps
end Tenancy
end CertWatch
