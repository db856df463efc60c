import CertWatch.Proofs.Allocation.Fleet

/-!
# Stages and tenants

A call and its tenant go together: the tenant asks while the stage is that of asking, and has a guard
from the second reading on. So a run of a fleet is a run of its tenants, in which only the writes of the
fleet change what is stored.
-/

namespace CertWatch
set_option autoImplicit false

namespace Tenant

/-- The same tenant, whatever the service has done for it. -/
inductive Like : Tenant → Tenant → Prop where
  | same (t : Tenant) : Like t t
  | asking (a : Acquisition) (since : Nat) (done? done?' : Option Bool) :
      Like (.asking a since done?) (.asking a since done?')
  | holding {g g' : Guard} (done? done?' : Option Bool) (terms : g'.renewCall = g.renewCall) :
      Like (.holding g done?) (.holding g' done?')
  | leaving (g : Guard) (done? done?' : Option Unit) : Like (.leaving g done?) (.leaving g done?')

/-- Whether a tenant has a guard of a resource that it has not released. -/
def Guards (r : String) (t : Tenant) : Prop := ∃ g done?, t = .holding g done? ∧ g.resource = r

variable {t t' : Tenant} {r : String}

theorem Guards.granted (h : t.Guards r) : t.Granted r := by
  obtain ⟨g, done?, rfl, resource⟩ := h
  exact resource

theorem Guards.like (h : t.Guards r) (like : t.Like t') : t'.Guards r := by
  obtain ⟨g, done?, rfl, resource⟩ := h
  cases like with
  | same => exact ⟨g, done?, rfl, resource⟩
  | @holding _ g' _ done?' terms => exact ⟨g', done?', rfl, (congrArg Call.subject terms).trans resource⟩

end Tenant

/-- Only a write at a key changes what is stored there. -/
theorem Backend.get?_store_perform (b : Backend) (now : Nat) {c : Call} {key : String}
    (spares : ∀ value, c ≠ .set key value) : (b.perform now c).1.store.get? key = b.store.get? key := by
  cases c with
  | set other value =>
    have ne : key ≠ other := by
      rintro rfl
      exact spares value rfl
    exact b.store.get?_insert_of_ne _ ne
  | _ => rfl

namespace Tenancy

variable {owner : Nat → String} {s s' : Tenancy} {n m : Nat} {t : Tenant} {e : Event} {key : String}

theorem like_mark (h : (s.tenants n).Like t) : (s.tenants m).Like ((s.mark n t).tenants m) := by
  by_cases same : m = n
  · subst same
    simpa [mark] using h
  · simpa [mark, same] using Tenant.Like.same (s.tenants m)

/-- Nothing that happens around an allocation changes where its tenant stands. -/
theorem like_of_quiet (quiet : e.Quiet key) (step : Step owner s e s') :
    (s.tenants m).Like (s'.tenants m) := by
  cases step with
  | pass => exact .same _
  | attempt n here => exact like_mark (here ▸ .asking ..)
  | @tick n g done? due here isDue rung =>
    exact like_mark (here ▸ .holding done? none (g.renewCall_tick s.now))
  | renew n here asking => exact like_mark (here ▸ .holding _ _ rfl)
  | @hear n g done? ticker since here asking r told =>
    exact like_mark (here ▸ .holding done? none (g.renewCall_answered s.now r))
  | giveUp n here => exact like_mark (here ▸ .leaving ..)
  | land loose => exact .same _
  | outside other => exact .same _
  | _ => exact quiet.2.elim

theorem get?_store_of_step (spared : ¬ e.Writes key) (step : Step owner s e s') :
    s'.backend.store.get? key = s.backend.store.get? key := by
  have performed (c : Call) (spares : ∀ value, c ≠ .set key value) :
      (s.perform c).backend.store.get? key = s.backend.store.get? key :=
    Backend.get?_store_perform s.backend s.now spares
  cases step with
  | attempt n here => exact performed _ (fun _ => nofun)
  | renew n here asking => exact performed _ (fun _ => nofun)
  | giveUp n here => exact performed _ (fun _ => nofun)
  | land loose => exact performed _ fun value same => spared ⟨value, same⟩
  | outside other => exact performed _ fun value same => spared ⟨value, same⟩
  | _ => rfl

@[simp] theorem put_tenants (s : Tenancy) (n : Nat) (t : Tenant) :
    (s.put n t).tenants = Function.update s.tenants n t := rfl

@[simp] theorem put_backend (s : Tenancy) (n : Nat) (t : Tenant) : (s.put n t).backend = s.backend := rfl

@[simp] theorem put_now (s : Tenancy) (n : Nat) (t : Tenant) : (s.put n t).now = s.now := rfl

@[simp] theorem perform_tenants (s : Tenancy) (c : Call) : (s.perform c).tenants = s.tenants := rfl

@[simp] theorem enter_backend (s : Tenancy) (n : Nat) (stage : Stage) :
    (s.enter n stage).backend = s.backend := by
  cases stage <;> rfl

theorem enter_tenants_of_ne (s : Tenancy) (stage : Stage) (ne : m ≠ n) :
    (s.enter n stage).tenants m = s.tenants m := by
  cases stage with
  | asking a since => simp [enter, ne]
  | _ => rfl

end Tenancy

namespace Stage

variable {c : NamespaceConfig} {r : String} {t t' : Tenant} {stage : Stage}

/-- A reading is waited for at two stages. -/
theorem of_want_get (wants : stage.want c = .answer (.get c.prefixKey)) :
    stage = .reading ∨ stage = .rereading := by
  cases stage with
  | reading => exact .inl rfl
  | rereading => exact .inr rfl
  | _ => simp [want, Acquisition.attempt] at wants

theorem afterRead_of_some {owner : String} {now : Nat} {bytes : Option Bytes} {v : String}
    (found : StoredPrefix.usableIn? c.refreshBefore bytes = some v) :
    afterRead c owner now (.ok bytes) = .finished (.ok v) := by
  simp [afterRead, found]

theorem afterRead_of_none {owner : String} {now : Nat} {bytes : Option Bytes}
    (found : StoredPrefix.usableIn? c.refreshBefore bytes = none) :
    afterRead c owner now (.ok bytes) = .asking (wanted c owner now) now := by
  simp [afterRead, found]

theorem afterReread_of_none {fresh : StoredPrefix} {bytes : Option Bytes}
    (found : StoredPrefix.usableIn? c.refreshBefore bytes = none) :
    afterReread c true fresh (.ok bytes) = .writing fresh := by
  simp [afterReread, found]

/-- After the first reading an allocation asks for the lease or is finished. -/
theorem afterRead_cases (c : NamespaceConfig) (owner : String) (now : Nat)
    (answer : Except Failure (Option Bytes)) :
    (∃ bytes, answer = .ok bytes ∧ StoredPrefix.usableIn? c.refreshBefore bytes = none ∧
      afterRead c owner now answer = .asking (wanted c owner now) now) ∨
    (∃ o, afterRead c owner now answer = .finished o ∧ ∀ v, o = .ok v →
      ∃ bytes, answer = .ok bytes ∧ StoredPrefix.usableIn? c.refreshBefore bytes = some v) := by
  cases answer with
  | error f => exact .inr ⟨.error f, rfl, nofun⟩
  | ok bytes =>
    cases found : StoredPrefix.usableIn? c.refreshBefore bytes with
    | none => exact .inl ⟨bytes, rfl, found, afterRead_of_none found⟩
    | some v =>
      refine .inr ⟨.ok v, afterRead_of_some found, ?_⟩
      rintro _ ⟨⟩
      exact ⟨bytes, rfl, found⟩

/-- After the second reading an allocation writes, if it has seen nothing that it can use, or it gives
the lease up. -/
theorem afterReread_cases (c : NamespaceConfig) (held : Bool) (fresh : StoredPrefix)
    (answer : Except Failure (Option Bytes)) :
    (∃ bytes, answer = .ok bytes ∧ StoredPrefix.usableIn? c.refreshBefore bytes = none ∧
      afterReread c held fresh answer = .writing fresh) ∨
    (∃ o, afterReread c held fresh answer = .releasing o ∧ ∀ v, o = .ok v →
      ∃ bytes, answer = .ok bytes ∧ StoredPrefix.usableIn? c.refreshBefore bytes = some v) := by
  cases answer with
  | error f => exact .inr ⟨.error f, rfl, nofun⟩
  | ok bytes =>
    cases found : StoredPrefix.usableIn? c.refreshBefore bytes with
    | some v =>
      refine .inr ⟨.ok v, by simp [afterReread, found], ?_⟩
      rintro _ ⟨⟩
      exact ⟨bytes, rfl, found⟩
    | none =>
      cases held with
      | true => exact .inl ⟨bytes, rfl, found, afterReread_of_none found⟩
      | false =>
        exact .inr ⟨.error (Guard.lossOf c.lockResource), by simp [afterReread, found], nofun⟩

/-- After the write an allocation gives the lease up, with its own prefix only if it still holds it. -/
theorem afterWrite_cases (c : NamespaceConfig) (held : Bool) (fresh : StoredPrefix)
    (answer : Except Failure Unit) :
    ∃ o, afterWrite c held fresh answer = .releasing o ∧
      ∀ v, o = .ok v → answer = .ok () ∧ held = true ∧ v = fresh.value := by
  cases answer with
  | error f => exact ⟨.error f, rfl, nofun⟩
  | ok done =>
    cases held with
    | true =>
      refine ⟨.ok fresh.value, rfl, ?_⟩
      rintro _ ⟨⟩
      exact ⟨rfl, rfl, rfl⟩
    | false => exact ⟨.error (Guard.lossOf c.lockResource), rfl, nofun⟩

/-- After an attempt an allocation has the lease, pauses or has failed. -/
theorem afterAttempt_cases (a : Acquisition) (now : Nat) (answer : Except Failure Bool) :
    afterAttempt a now answer = .rereading ∨ (∃ next, afterAttempt a now answer = .pausing a next) ∨
      ∃ f, afterAttempt a now answer = .finished (.error f) := by
  unfold afterAttempt
  cases a.judge now answer with
  | granted => exact .inl rfl
  | pause next => exact .inr (.inl ⟨next, rfl⟩)
  | failed f => exact .inr (.inr ⟨f, rfl⟩)

/-- An attempt leads neither to a write nor to a prefix. -/
theorem answered_attempt (c : NamespaceConfig) (m : Moment) (a : Acquisition) (since : Nat)
    (answer : Except Failure Bool) :
    (∀ f, answered c m (.asking a since) a.attempt answer ≠ .writing f) ∧
      ∀ v, (answered c m (.asking a since) a.attempt answer).outcome? ≠ some (.ok v) := by
  show (∀ f, afterAttempt a m.now answer ≠ .writing f) ∧
    ∀ v, (afterAttempt a m.now answer).outcome? ≠ some (.ok v)
  rcases afterAttempt_cases a m.now answer with granted | ⟨next, pause⟩ | ⟨f, failed⟩
  · rw [granted]
    exact ⟨fun _ => nofun, fun _ => nofun⟩
  · rw [pause]
    exact ⟨fun _ => nofun, fun _ => nofun⟩
  · rw [failed]
    exact ⟨fun _ => nofun, fun _ => nofun⟩

/-- Where the tenant of an allocation stands at a stage. -/
def Fits (r : String) (t : Tenant) : Stage → Prop
  | reading => t = .absent
  | asking a since => a.resource = r ∧ ∃ done?, t = .asking a since done?
  | pausing a next => a.resource = r ∧ t = .pausing a next
  | rereading => t.Guards r
  | writing _ => t.Guards r
  | releasing _ => (∃ g done?, t = .holding g done?) ∨ ∃ g done?, t = .leaving g done?
  | finished _ => True

theorem Fits.like (h : stage.Fits r t) (like : t.Like t') : stage.Fits r t' := by
  cases stage with
  | reading =>
    obtain rfl : t = .absent := h
    cases like
    rfl
  | asking a since =>
    obtain ⟨resource, done?, rfl⟩ := h
    refine ⟨resource, ?_⟩
    cases like with
    | same => exact ⟨done?, rfl⟩
    | asking _ _ _ done?' => exact ⟨done?', rfl⟩
  | pausing a next =>
    obtain ⟨resource, rfl⟩ := h
    cases like
    exact ⟨resource, rfl⟩
  | rereading => exact Tenant.Guards.like h like
  | writing fresh => exact Tenant.Guards.like h like
  | releasing o =>
    rcases h with ⟨g, done?, rfl⟩ | ⟨g, done?, rfl⟩
    · cases like with
      | same => exact .inl ⟨g, done?, rfl⟩
      | @holding _ g' _ done?' terms => exact .inl ⟨g', done?', rfl⟩
    · cases like with
      | same => exact .inr ⟨g, done?, rfl⟩
      | leaving _ _ done?' => exact .inr ⟨g, done?', rfl⟩
  | finished o => trivial

/-- The answer to an attempt means the same to an allocation and to its tenant. -/
theorem fits_judged {a : Acquisition} (resource : a.resource = r) (since now : Nat)
    (answer : Except Failure Bool) :
    (afterAttempt a now answer).Fits r (Tenant.judged a since now answer) := by
  unfold afterAttempt Tenant.judged
  cases a.judge now answer with
  | granted => exact ⟨a.guard since now, none, rfl, resource⟩
  | pause next => exact ⟨resource, rfl⟩
  | failed f => trivial

end Stage

/-- Where the tenant of a call stands. -/
def Phase.Fits (r : String) (t : Tenant) : Phase → Prop
  | idle => t = .absent
  | waiting => t = .absent
  | working stage => stage.Fits r t
  | returned _ => True

theorem Phase.Fits.like {r : String} {t t' : Tenant} {phase : Phase} (h : phase.Fits r t)
    (like : t.Like t') : phase.Fits r t' := by
  cases phase with
  | idle =>
    obtain rfl : t = .absent := h
    cases like
    rfl
  | waiting =>
    obtain rfl : t = .absent := h
    cases like
    rfl
  | working stage => exact Stage.Fits.like h like
  | returned o => trivial

end CertWatch
