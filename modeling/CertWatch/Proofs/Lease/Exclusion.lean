import CertWatch.Proofs.Lease.Claims

/-!
# Leases exclude each other

A guard that reports to hold its lease is right: its owner has the live lease at the service, and has
had it without interruption since it was granted. So no two guards report to hold a lease on the same
resource. That a lease was never interrupted is shown the other way round: once it has lapsed, no
renewal brings it back, and its guard does not report to hold it any more.
-/

namespace CertWatch
set_option autoImplicit false

namespace Tenant

variable {t t' : Tenant} {now : Nat} {r : String}

/-- What was granted to a tenant stays granted until its tenancy is over, and then it stays over. -/
structure Follows (r : String) (t t' : Tenant) : Prop where
  ended : t.Over → t'.Over
  granted : t.Granted r → t'.Over ∨ t'.Granted r

theorem follows_refl (r : String) (t : Tenant) : t.Follows r t := ⟨id, .inr⟩

/-- Nothing was granted as yet. -/
theorem follows_of_nothing (notOver : ¬ t.Over) (notGranted : ¬ t.Granted r) : t.Follows r t' :=
  ⟨fun ended => absurd ended notOver, fun granted => absurd granted notGranted⟩

theorem follows_of_over (ended : t'.Over) : t.Follows r t' := ⟨fun _ => ended, fun _ => .inl ended⟩

/-- A guard stays one of its resource, whatever it comes to know. -/
theorem follows_holding {g g' : Guard} {done? done?' : Option Bool} (terms : g'.renewCall = g.renewCall) :
    (holding g done?).Follows r (holding g' done?') := by
  refine ⟨id, fun granted => .inr ?_⟩
  have resource : g'.resource = g.resource := congrArg Call.subject terms
  exact resource.trans granted

theorem follows_judged (a : Acquisition) (since now : Nat) {done? : Option Bool}
    {answer : Except Failure Bool} (told : Told done? answer) :
    (asking a since done?).Follows r (judged a since now answer) := by
  rcases judged_cases a since now told with ⟨rfl, granted⟩ | ⟨rfl, -⟩ | ended
  · rw [granted]
    exact ⟨id, .inr⟩
  · exact follows_of_nothing id id
  · rw [ended]
    exact follows_of_over trivial

theorem Follows.trans {t'' : Tenant} (first : t.Follows r t') (second : t'.Follows r t'') :
    t.Follows r t'' := by
  refine ⟨fun ended => second.ended (first.ended ended), fun granted => ?_⟩
  rcases first.granted granted with ended | granted
  · exact .inl (second.ended ended)
  · exact second.granted granted

/-- A guard that reports to hold its lease was not released. -/
theorem holding_of_holds {owner : String} (proper : t.Proper owner now) (h : t.Holds now r) :
    ∃ g done?, t = holding g done? ∧ g.resource = r ∧ now < g.expiresAt := by
  obtain ⟨g, here, resource, held⟩ := h
  simp only [Guard.isHeld, Bool.and_eq_true, Bool.not_eq_true', decide_eq_true_eq] at held
  cases t with
  | holding g' done? =>
    cases here
    exact ⟨g, done?, rfl, resource, held.2⟩
  | leaving g' done? =>
    cases here
    rw [proper.2] at held
    cases held.1.1
  | _ => cases here

theorem not_over_of_granted (h : t.Granted r) : ¬ t.Over := by
  cases t with
  | leaving g done? => cases h
  | gone => cases h
  | _ => exact id

end Tenant

namespace Tenancy

variable {owner : Nat → String} {s s' : Tenancy} {n m : Nat} {t : Tenant} {c : Call} {e : Event}
  {r : String}

theorem follows_mark (h : (s.tenants n).Follows r t) :
    (s.tenants m).Follows r ((s.mark n t).tenants m) := by
  by_cases same : m = n
  · subst same
    simpa [mark] using h
  · simpa [mark, same] using Tenant.follows_refl r (s.tenants m)

theorem follows_put (h : (s.tenants n).Follows r t) :
    (s.tenants m).Follows r ((s.put n t).tenants m) := follows_mark h

theorem follows_of_step (step : Step owner s e s') : (s.tenants m).Follows r (s'.tenants m) := by
  cases step with
  | pass => exact Tenant.follows_refl r _
  | ask n new own => exact follows_put (new ▸ Tenant.follows_of_nothing id id)
  | attempt n here => exact follows_mark (here ▸ Tenant.follows_of_nothing id id)
  | judge n here answer told => exact follows_put (here ▸ Tenant.follows_judged _ _ _ told)
  | resume n here due => exact follows_put (here ▸ Tenant.follows_of_nothing id id)
  | callOff n here => exact follows_put (Tenant.follows_of_over trivial)
  | @tick n g done? due here isDue rung =>
    exact follows_mark (here ▸ Tenant.follows_holding (g.renewCall_tick s.now))
  | renew n here asking => exact follows_mark (here ▸ Tenant.follows_holding rfl)
  | @hear n g done? ticker since here asking answer told =>
    exact follows_put (here ▸ Tenant.follows_holding (g.renewCall_answered s.now answer))
  | release n here => exact follows_put (Tenant.follows_of_over trivial)
  | drop n here last => exact follows_put (Tenant.follows_of_over trivial)
  | giveUp n here => exact follows_mark (Tenant.follows_of_over trivial)
  | finish n here answer told => exact follows_put (Tenant.follows_of_over trivial)
  | land loose => exact Tenant.follows_refl r _
  | outside other => exact Tenant.follows_refl r _

/-! ## Interruptions -/

/-- A call that is no request of a tenant's own does not make it the owner. -/
theorem owner?_of_perform {o : String} (h : (s.perform c).owner? r = some o)
    (noRequest : ∀ r' length, c ≠ .tryAcquire r' o length) : s.owner? r = some o :=
  Backend.owner?_of_perform h noRequest

/-- **A lapse is final.** As long as a lease is granted to a tenant, a step can take it away but never
bring it back. -/
theorem owner?_of_step (distinct : Function.Injective owner) (h : s.Consistent owner)
    (granted : (s.tenants m).Granted r) (step : Step owner s e s')
    (owned : s'.owner? r = some (owner m)) : s.owner? r = some (owner m) := by
  cases step with
  | pass => exact Leases.owner?_of_later owned (Nat.le_succ _)
  | @attempt n a since here =>
    refine owner?_of_perform (c := a.attempt) owned fun r' length request => ?_
    have own : a.owner = owner n := (here ▸ (h.sound n).proper : (Tenant.asking a since none).Proper _ _).1
    obtain rfl : n = m := distinct (own.symm.trans (Option.some.inj (congrArg Call.lessee? request)))
    rw [here] at granted
    cases granted
  | @renew n g ticker since here asking =>
    exact owner?_of_perform (c := g.renewCall) owned (fun _ _ => nofun)
  | @giveUp n g here => exact owner?_of_perform (c := g.releaseCall) owned (fun _ _ => nofun)
  | @land c loose =>
    refine owner?_of_perform (c := c) owned fun r' length request => ?_
    have left := h.loose m c loose (congrArg Call.lessee? request)
    subst request
    generalize s.tenants m = t at granted left
    cases t with
    | holding g done? => cases left
    | asking a since done? => cases left
    | absent => cases left
    | pausing a next => cases left
    | leaving g done? => cases granted
    | gone => cases granted
  | @outside c other =>
    exact owner?_of_perform owned fun r' length request => other m (congrArg Call.lessee? request)
  | _ => exact owned

theorem Consistent.run (distinct : Function.Injective owner) (h : s.Consistent owner)
    (run : Run (Step owner) s s') : s'.Consistent owner :=
  run.keeps (fun _ _ _ h step => h.step distinct step) h

theorem follows_of_run (run : Run (Step owner) s s') : (s.tenants m).Follows r (s'.tenants m) := by
  induction run with
  | refl => exact Tenant.follows_refl r _
  | tail _ step ih =>
    obtain ⟨e, step⟩ := step
    exact ih.trans (follows_of_step step)

/-- A lease that a tenant still has at the end of a run was never interrupted in it. -/
theorem owner?_of_run (distinct : Function.Injective owner) (h : s.Consistent owner)
    (granted : (s.tenants m).Granted r) (run : Run (Step owner) s s') (notOver : ¬ (s'.tenants m).Over)
    (owned : s'.owner? r = some (owner m)) : s.owner? r = some (owner m) := by
  induction run with
  | refl => exact owned
  | @tail middle last run step ih =>
    obtain ⟨e, step⟩ := step
    have still : ¬ (middle.tenants m).Over := fun ended => notOver ((follows_of_step (r := r) step).ended ended)
    have granted' := ((follows_of_run run).granted granted).resolve_left still
    exact ih still (owner?_of_step distinct (h.run distinct run) granted' step owned)

/-- A guard that reports to hold its lease is right, and its tenancy is not over. -/
theorem Consistent.of_holds (h : s.Consistent owner) (holds : (s.tenants m).Holds s.now r) :
    s.owner? r = some (owner m) ∧ (s.tenants m).Granted r := by
  obtain ⟨g, done?, here, rfl, before⟩ := Tenant.holding_of_holds (h.sound m).proper holds
  have covers := (h.sound m).covers g.resource g.length g.expiresAt (here ▸ ⟨rfl, rfl, .inl rfl⟩)
  refine ⟨covers.owner? before, ?_⟩
  rw [here]
  rfl

/-- Nobody has asked for anything. -/
def start (now : Nat) (b : Backend) : Tenancy := { now, backend := b }

theorem consistent_start (owner : Nat → String) (now : Nat) (b : Backend) :
    (start now b).Consistent owner where
  sound _ := ⟨trivial, nofun, nofun⟩
  loose _ _ left := by cases left

theorem ofList_replicate_injective (c : Char) :
    Function.Injective fun n => String.ofList (List.replicate n c) := by
  intro m n same
  simpa using congrArg (fun t => t.toList.length) same

/-- **Exclusion.** In every run of tenants with distinct owners, over any leases that there were
before: whenever the guard of a tenant reports to hold its lease, the tenant's owner has the live lease
on the resource, then and at every state since the lease was granted. So no two guards report to hold a
lease on one resource. -/
theorem guards_exclude (distinct : Function.Injective owner) {now : Nat} {b : Backend}
    (run : Run (Step owner) (start now b) s) :
    (∀ m r, (s.tenants m).Holds s.now r → s.owner? r = some (owner m)) ∧
      (∀ m r s', (s.tenants m).Granted r → Run (Step owner) s s' → (s'.tenants m).Holds s'.now r →
        s.owner? r = some (owner m)) ∧
      ∀ m n r, (s.tenants m).Holds s.now r → (s.tenants n).Holds s.now r → m = n := by
  have consistent := (consistent_start owner now b).run distinct run
  refine ⟨fun m r holds => (consistent.of_holds holds).1, ?_, ?_⟩
  · intro m r s' granted later holds
    obtain ⟨owned, granted'⟩ := (consistent.run distinct later).of_holds holds
    exact owner?_of_run distinct consistent granted later (Tenant.not_over_of_granted granted') owned
  · intro m n r first second
    have owned := (consistent.of_holds first).1
    rw [(consistent.of_holds second).1] at owned
    exact distinct (Option.some.inj owned).symm

/-- A tenant asks for a lease, is granted it and hears of that: from then on it holds it. -/
theorem guards_exclude_of_one_grant :
    ∃ s, Run (Step fun n => String.ofList (List.replicate n 'a')) (start 0 {}) s ∧
      (s.tenants 1).Holds s.now "r" ∧ s.owner? "r" = some "a" := by
  have asked : Step (fun n => String.ofList (List.replicate n 'a')) (start 0 {}) (.asked 1) _ :=
    .ask 1 (a := ⟨"r", "a", 10, 5, none⟩) rfl rfl
  have run := (Run.single asked).tail (.attempt 1 rfl)
    |>.tail (.judge 1 rfl (.ok true) rfl)
  refine ⟨_, run, ?_, ?_⟩
  · exact ⟨_, rfl, rfl, rfl⟩
  · exact (guards_exclude (ofList_replicate_injective 'a') run).1 1 "r" ⟨_, rfl, rfl, rfl⟩

end Tenancy
end CertWatch
