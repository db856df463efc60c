import CertWatch.Proofs.Lease.Claims
import CertWatch.Proofs.Lease.Custody

/-!
# Leases are given back

Whichever way a guard comes to its end, it asks for no renewal afterwards, and one call gives its lease up,
unless no task could make it. The invariant says what has been noted up to now by what is left to do, so it
is the same for all ways; and a lease of the owner lasts no longer than if it had been renewed at the end.
-/

namespace CertWatch
set_option autoImplicit false

/-! ## What calls do to the end of a lease -/

namespace Leases

/-- An owner has no lease on a resource beyond an instant. -/
def EndsBy (ls : Leases) (r owner : String) (latest : Nat) : Prop :=
  ∀ e, ls.get? r = some ⟨owner, e⟩ → e ≤ latest

/-- An owner has no lease on a resource. -/
def Without (ls : Leases) (r owner : String) : Prop := ∀ e, ls.get? r ≠ some ⟨owner, e⟩

variable {ls : Leases} {r owner : String} {latest now : Nat}

theorem EndsBy.mono {later : Nat} (h : ls.EndsBy r owner latest) (le : latest ≤ later) : ls.EndsBy r owner later :=
  fun e there => Nat.le_trans (h e there) le

/-- The lease is not live from that instant on. -/
theorem EndsBy.owner?_ne (h : ls.EndsBy r owner latest) (late : latest ≤ now) : ls.owner? now r ≠ some owner := by
  intro owned
  obtain ⟨e, there, live⟩ := owner?_eq_some_iff.1 owned
  have := h e there
  omega

theorem Without.owner?_ne (h : ls.Without r owner) (now : Nat) : ls.owner? now r ≠ some owner := by
  intro owned
  obtain ⟨e, there, -⟩ := owner?_eq_some_iff.1 owned
  exact h e there

end Leases

namespace Backend

variable {b : Backend} {now latest e : Nat} {c : Call} {r owner : String}

/-- A call leaves the end of a lease as it is, or the owner asks for a lease that ends no later. -/
theorem endsBy_perform (h : b.leases.EndsBy r owner latest) (noRequest : ∀ length, c ≠ .tryAcquire r owner length)
    (renewal : ∀ length, c = .renew r owner length → now + length ≤ latest) :
    (b.perform now c).1.leases.EndsBy r owner latest := by
  intro e there
  rcases get?_of_perform there with before | ⟨length, rfl, request | ⟨renew, -⟩⟩
  · exact h e before
  · exact absurd request (noRequest length)
  · exact renewal length renew

/-- A lease that is given up comes back only if it is asked for. -/
theorem without_perform (h : b.leases.Without r owner) (noRequest : ∀ length, c ≠ .tryAcquire r owner length) :
    (b.perform now c).1.leases.Without r owner := by
  intro e there
  rcases get?_of_perform there with before | ⟨length, -, request | ⟨-, owned⟩⟩
  · exact h e before
  · exact absurd request (noRequest length)
  · exact h.owner?_ne now owned

theorem without_release (b : Backend) (now : Nat) (r owner : String) :
    (b.perform now (.release r owner)).1.leases.Without r owner := by
  intro e there
  change (b.leases.release r owner).get? r = _ at there
  rw [Leases.get?_release] at there
  split at there
  case isTrue => cases there
  case isFalse kept => exact kept ⟨rfl, by rw [there]; rfl⟩

/-- A lease that is granted lasts for the length that was asked for, from now. -/
theorem endsBy_tryAcquire {length : Nat} (granted : (b.perform now (.tryAcquire r owner length)).2 = true) :
    (b.perform now (.tryAcquire r owner length)).1.leases.EndsBy r owner (now + length) := by
  intro e there
  change (b.leases.tryAcquire now r owner length).2 = true at granted
  change (b.leases.tryAcquire now r owner length).1.get? r = _ at there
  unfold Leases.tryAcquire at granted there
  split at granted
  case isTrue free =>
    rw [if_pos free, Table.get?_insert_self] at there
    exact Nat.le_of_eq (congrArg Lease.expiresAt (Option.some.inj there)).symm
  case isFalse => cases granted

end Backend

/-! ## The course of a custody -/

namespace Noted

/-- Nothing but requests for a lease. -/
def Requests (ds : List Noted) : Prop := ∀ d ∈ ds, ∃ a : Acquisition, d = asked a.attempt

/-- Nothing but requests to renew a lease. -/
def Renewals (g : Guard) (ds : List Noted) : Prop := ∀ d ∈ ds, d = asked g.renewCall

variable {ds : List Noted} {g : Guard}

theorem Requests.snoc (h : Requests ds) (a : Acquisition) : Requests (ds ++ [asked a.attempt]) :=
  List.forall_mem_append.2 ⟨h, by simp⟩

theorem Renewals.snoc (h : Renewals g ds) : Renewals g (ds ++ [asked g.renewCall]) :=
  List.forall_mem_append.2 ⟨h, by simp⟩

theorem Requests.releases (h : Requests ds) : releases ds = [] := by
  refine releases_eq_nil fun d mem c begun => ?_
  obtain ⟨a, attempt⟩ := h d mem
  cases attempt.symm.trans begun
  nofun

theorem Renewals.releases (h : Renewals g ds) : releases ds = [] := by
  refine releases_eq_nil fun d mem c begun => ?_
  cases (h d mem).symm.trans begun
  nofun

/-- Requests and renewals are no more than that. -/
theorem not_mem_of_ne_asked {d : Noted} (other : ∀ c, d ≠ asked c) :
    (∀ {ds}, Requests ds → d ∉ ds) ∧ ∀ {ds g}, Renewals g ds → d ∉ ds := by
  refine ⟨fun h mem => ?_, fun h mem => other _ (h d mem)⟩
  obtain ⟨a, attempt⟩ := h d mem
  exact other _ attempt

end Noted

/-- What is noted after the end of a guard, by what is left to do about the call that gives its lease up. -/
inductive Aftermath (call : Call) : Farewell → List Errand → List Noted → Prop where
  | orphaned : Aftermath call .orphaned [] []
  | due : Aftermath call .dropped [.due call] []
  | underWay {how : Farewell} (can : how ≠ .orphaned) : Aftermath call how [.underWay call none] [.asked call]
  | done {how : Farewell} (can : how ≠ .orphaned) :
      Aftermath call how [.underWay call (some ())] [.asked call, .gaveUp]
  | closed {how : Farewell} (can : how ≠ .orphaned) {tail : List Noted} (known : tail = [] ∨ tail = [.gaveUp]) :
      Aftermath call how [.closed] (.asked call :: tail)

theorem Errand.eq_of_singleton {x y : Errand} {before after : List Errand} (h : [x] = before ++ y :: after) :
    before = [] ∧ y = x ∧ after = [] := by
  cases before <;> simp_all

namespace Aftermath

variable {call c : Call} {how : Farewell} {before after : List Errand} {ds : List Noted}

/-- A task that runs makes the call, for the first time. -/
theorem begin (h : Aftermath call how (before ++ .due c :: after) ds) :
    c = call ∧ Aftermath call how (before ++ .underWay c none :: after) (ds ++ [.asked c]) := by
  generalize all : before ++ .due c :: after = errands at h
  cases h with
  | orphaned => simp at all
  | due =>
    obtain ⟨rfl, same, rfl⟩ := Errand.eq_of_singleton all.symm
    cases same
    exact ⟨rfl, .underWay nofun⟩
  | underWay can => cases (Errand.eq_of_singleton all.symm).2.1
  | done can => cases (Errand.eq_of_singleton all.symm).2.1
  | closed can known => cases (Errand.eq_of_singleton all.symm).2.1

/-- The call takes effect. -/
theorem giveUp (h : Aftermath call how (before ++ .underWay c none :: after) ds) :
    c = call ∧ Aftermath call how (before ++ .underWay c (some ()) :: after) (ds ++ [.gaveUp]) := by
  generalize all : before ++ .underWay c none :: after = errands at h
  cases h with
  | orphaned => simp at all
  | due => cases (Errand.eq_of_singleton all.symm).2.1
  | underWay can =>
    obtain ⟨rfl, same, rfl⟩ := Errand.eq_of_singleton all.symm
    cases same
    exact ⟨rfl, .done can⟩
  | done can => cases (Errand.eq_of_singleton all.symm).2.1
  | closed can known => cases (Errand.eq_of_singleton all.symm).2.1

/-- The call is answered. -/
theorem answered {done? : Option Unit} (h : Aftermath call how (before ++ .underWay c done? :: after) ds) :
    Aftermath call how (before ++ .closed :: after) ds := by
  generalize all : before ++ .underWay c done? :: after = errands at h
  cases h with
  | orphaned => simp at all
  | due => cases (Errand.eq_of_singleton all.symm).2.1
  | underWay can =>
    obtain ⟨rfl, -, rfl⟩ := Errand.eq_of_singleton all.symm
    exact .closed can (.inl rfl)
  | done can =>
    obtain ⟨rfl, -, rfl⟩ := Errand.eq_of_singleton all.symm
    exact .closed can (.inr rfl)
  | closed can known => cases (Errand.eq_of_singleton all.symm).2.1

end Aftermath

namespace Guard

theorem released_tick (g : Guard) (now : Nat) : (g.tick now).released = g.released := by
  unfold tick
  split <;> rfl

theorem released_answered (g : Guard) (now : Nat) (r : Except Failure Bool) :
    (g.answered now r).1.released = g.released := by
  unfold answered
  repeat' split
  all_goals rfl

end Guard

namespace Custody

/-- The holder has the guard, and has asked for nothing but a lease and renewals. -/
structure Kept (c : Custody) (past : List Noted) : Prop where
  here : c.stand = .kept
  live : c.guard.released = false
  idle : c.errands = []
  order : ∃ requests renewals, Noted.Requests requests ∧ Noted.Renewals c.guard renewals ∧
    past = requests ++ .granted :: renewals

/-- The guard has come to its end, and asked for no renewal since. -/
structure Parted (c : Custody) (past : List Noted) (how : Farewell) (since : Nat) : Prop where
  here : c.stand.parted? = some (how, since)
  ended : c.guard.renewal = .ended
  marked : ∀ t, c.stand = .releasing t → c.guard.released = true
  order : ∃ requests renewals after, Noted.Requests requests ∧ Noted.Renewals c.guard renewals ∧
    past = requests ++ .granted :: renewals ++ .parted how :: after ∧
    Aftermath c.guard.releaseCall how c.errands after

/-- What has been noted of a guard, by where it is. -/
inductive Course (c : Custody) (past : List Noted) : Prop where
  | kept (kept : c.Kept past)
  | parted {how : Farewell} {since : Nat} (parted : c.Parted past how since)

/-- The instant to which a lease reaches that is renewed now, or was at the end of the guard. -/
def latest (c : Custody) (now : Nat) : Nat := c.stand.parted?.elim now Prod.snd + c.guard.length

/-- What holds of a guard between any two steps. -/
structure Sound (owner : String) (now : Nat) (ls : Leases) (past : List Noted) (c : Custody) : Prop where
  own : c.guard.owner = owner
  course : c.Course past
  ends : ls.EndsBy c.guard.resource owner (c.latest now)
  without : .gaveUp ∈ past → ls.Without c.guard.resource owner

variable {owner : String} {now since : Nat} {how : Farewell} {b b' : Backend} {ls : Leases}
  {past notes : List Noted} {c c' : Custody}

theorem Kept.not_gaveUp (h : c.Kept past) : .gaveUp ∉ past := by
  obtain ⟨requests, renewals, first, more, rfl⟩ := h.order
  have neither := Noted.not_mem_of_ne_asked (d := .gaveUp) nofun
  simp [neither.1 first, neither.2 more]

/-- A guard that asks for renewals is with its holder. -/
theorem Course.kept_of_renewal (h : c.Course past) (live : c.guard.renewal ≠ .ended) : c.Kept past := by
  cases h with
  | kept kept => exact kept
  | parted parted => exact absurd parted.ended live

theorem Course.kept_of_stand (h : c.Course past) (here : c.stand = .kept) : c.Kept past := by
  cases h with
  | kept kept => exact kept
  | parted parted =>
    have there := parted.here
    rw [here] at there
    cases there

theorem Course.parted_of_stand (h : c.Course past) (there : c.stand.parted? = some (how, since)) :
    c.Parted past how since := by
  cases h with
  | kept kept =>
    rw [kept.here] at there
    cases there
  | parted parted =>
    obtain ⟨rfl, rfl⟩ := Prod.mk.inj (Option.some.inj (parted.here.symm.trans there))
    exact parted

/-- A guard with something left to do has come to its end. -/
theorem Course.parted_of_errands (h : c.Course past) (busy : c.errands ≠ []) :
    ∃ how since, c.Parted past how since := by
  cases h with
  | kept kept => exact absurd kept.idle busy
  | parted parted => exact ⟨_, _, parted⟩

/-- A guard that its holder keeps comes to know something about its renewal, or asks for one. -/
theorem Sound.renewing (h : c.Sound owner now ls past) (kept : c.Kept past) {g : Guard} {renewed? : Option Bool}
    (terms : g.renewCall = c.guard.renewCall) (live : g.released = c.guard.released)
    (noted : notes = [] ∨ notes = [.asked c.guard.renewCall]) :
    ({ c with guard := g, renewed? } : Custody).Sound owner now ls (past ++ notes) := by
  obtain ⟨resource, own, length⟩ := Call.renew.inj terms
  have order : ∃ requests renewals, Noted.Requests requests ∧ Noted.Renewals g renewals ∧
      past ++ notes = requests ++ .granted :: renewals := by
    obtain ⟨requests, renewals, first, more, rfl⟩ := kept.order
    have more' : Noted.Renewals g renewals := fun d mem => (more d mem).trans (congrArg _ terms.symm)
    rcases noted with rfl | rfl
    · exact ⟨requests, renewals, first, more', List.append_nil _⟩
    · refine ⟨requests, renewals ++ [.asked g.renewCall], first, more'.snoc, ?_⟩
      rw [terms, List.append_assoc, List.cons_append]
  have kept' : ({ c with guard := g, renewed? } : Custody).Kept (past ++ notes) :=
    ⟨kept.here, live.trans kept.live, kept.idle, order⟩
  refine ⟨own.trans h.own, .kept kept', ?_, fun mem => absurd mem kept'.not_gaveUp⟩
  have latest : ({ c with guard := g, renewed? } : Custody).latest now = c.latest now :=
    congrArg (c.stand.parted?.elim now Prod.snd + ·) length
  rw [latest]
  exact resource ▸ h.ends

/-- The guard comes to its end, with what is then left to do. -/
theorem Sound.part (h : c.Sound owner now ls past) (kept : c.Kept past)
    (terms : c'.guard.renewCall = c.guard.renewCall) (here : c'.stand.parted? = some (how, now))
    (ended : c'.guard.renewal = .ended) (marked : ∀ t, c'.stand = .releasing t → c'.guard.released = true)
    (left : Aftermath c'.guard.releaseCall how c'.errands notes) (notYet : .gaveUp ∉ notes) :
    c'.Sound owner now ls (past ++ .parted how :: notes) := by
  obtain ⟨resource, own, length⟩ := Call.renew.inj terms
  have gaveUp : .gaveUp ∉ past ++ .parted how :: notes := by
    simp [kept.not_gaveUp, notYet]
  refine ⟨own.trans h.own, .parted ⟨here, ended, marked, ?_⟩, ?_, fun mem => absurd mem gaveUp⟩
  · obtain ⟨requests, renewals, first, more, rfl⟩ := kept.order
    exact ⟨requests, renewals, notes, first, fun d mem => (more d mem).trans (congrArg _ terms.symm), rfl, left⟩
  · have latest : c'.latest now = c.latest now := by
      rw [Custody.latest, Custody.latest, here, kept.here, length]
      rfl
    rw [latest, resource]
    exact h.ends

/-- What is left to do goes on. -/
theorem Parted.proceed (h : c.Parted past how since) {errands : List Errand}
    (left : ∀ ds, Aftermath c.guard.releaseCall how c.errands ds →
      Aftermath c.guard.releaseCall how errands (ds ++ notes)) :
    ({ c with errands } : Custody).Parted (past ++ notes) how since := by
  obtain ⟨requests, renewals, after, first, more, rfl, before⟩ := h.order
  refine ⟨h.here, h.ended, h.marked, requests, renewals, after ++ notes, first, more, ?_, left after before⟩
  rw [List.append_assoc, List.cons_append]

/-- A guard that was released has no call left when it is dropped. -/
theorem Parted.drop (h : c.Parted past .released since) (here : c.stand = .releasing since) (tasks : Bool) :
    (c.drop .released since tasks).Parted past .released since := by
  have none : c.guard.dropCall? = none := if_pos (h.marked since here)
  have errands : (c.drop .released since tasks).errands = c.errands := by
    cases tasks <;> simp [Custody.drop, none]
  refine ⟨rfl, rfl, nofun, ?_⟩
  rw [errands]
  exact h.order

/-- A guard that has come to its end goes on with what is left to do, and nothing happens to its lease. -/
theorem Sound.quietly (h : c.Sound owner now ls past) (terms : c'.guard.renewCall = c.guard.renewCall)
    (same : c'.stand.parted? = c.stand.parted?) (parted : c'.Parted (past ++ notes) how since)
    (notYet : .gaveUp ∉ notes) : c'.Sound owner now ls (past ++ notes) := by
  obtain ⟨resource, own, length⟩ := Call.renew.inj terms
  refine ⟨own.trans h.own, .parted parted, ?_, fun mem => ?_⟩
  · rw [Custody.latest, same, length, resource]
    exact h.ends
  · rw [resource]
    exact h.without ((List.mem_append.1 mem).resolve_right notYet)

/-- A call takes effect that asks for no lease, and if it renews one, then within its reach. -/
theorem Sound.perform (h : c.Sound owner now b.leases past) {call : Call}
    (noRequest : ∀ length, call ≠ .tryAcquire c.guard.resource owner length)
    (renewal : ∀ length, call = .renew c.guard.resource owner length → now + length ≤ c.latest now) :
    c.Sound owner now (b.perform now call).1.leases past where
  own := h.own
  course := h.course
  ends := Backend.endsBy_perform h.ends noRequest renewal
  without mem := Backend.without_perform (h.without mem) noRequest

/-- The lease is given up at the service. -/
theorem Sound.giveUp (h : c.Sound owner now b.leases past) {call : Call} {before after : List Errand}
    (there : c.errands = before ++ .underWay call none :: after) :
    ({ c with errands := before ++ .underWay call (some ()) :: after } : Custody).Sound owner now
      (b.perform now call).1.leases (past ++ [.gaveUp]) := by
  obtain ⟨how, since, parted⟩ := h.course.parted_of_errands (by simp [there])
  obtain ⟨-, -, ds, -, -, -, left⟩ := parted.order
  rw [there] at left
  obtain rfl := left.giveUp.1
  have proceeded := parted.proceed fun ds left => by
    rw [there] at left
    exact left.giveUp.2
  have given : c.Sound owner now (b.perform now c.guard.releaseCall).1.leases past :=
    h.perform (fun _ => nofun) fun _ => nofun
  refine ⟨h.own, .parted proceeded, given.ends, fun _ => ?_⟩
  have own : c.guard.releaseCall = .release c.guard.resource owner := h.own ▸ rfl
  rw [own]
  exact Backend.without_release b now _ _

theorem Sound.step (h : c.Sound owner now b.leases past) (step : Step now (b, c) notes (b', c')) :
    c'.Sound owner now b'.leases (past ++ notes) := by
  -- Ending the renewal is part of every end, so what a renewal does, it does for a guard that is kept.
  cases step with
  | @tick _ _ due isDue rung =>
    have kept := h.course.kept_of_renewal fun ended => by
      rw [Guard.due?, ended] at isDue
      cases isDue
    exact h.renewing kept (c.guard.renewCall_tick now) (c.guard.released_tick now) (.inr rfl)
  | @renew _ _ ticker since asking new =>
    have kept := h.course.kept_of_renewal fun ended => by
      rw [ended] at asking
      cases asking
    have reach : ∀ length, c.guard.renewCall = .renew c.guard.resource owner length →
        now + length ≤ c.latest now := by
      rintro length ⟨⟩
      rw [latest, kept.here]
      exact Nat.le_refl _
    have renewed : c.Sound owner now (b.perform now c.guard.renewCall).1.leases past :=
      h.perform (fun _ => nofun) reach
    exact renewed.renewing kept rfl rfl (.inl rfl)
  | @hear _ _ ticker since asking r told =>
    have kept := h.course.kept_of_renewal fun ended => by
      rw [ended] at asking
      cases asking
    exact h.renewing kept (c.guard.renewCall_answered now r) (c.guard.released_answered now r) (.inl rfl)
  | release here =>
    have kept := h.course.kept_of_stand here
    refine h.part kept rfl rfl rfl (fun _ _ => rfl) ?_ (by simp)
    rw [Custody.release, kept.idle]
    exact .underWay nofun
  | finish here before after there r told tasks =>
    have parted := h.course.parted_of_stand (congrArg Stand.parted? here)
    have heard := parted.proceed fun ds left => by
      rw [there] at left
      exact (List.append_nil ds).symm ▸ left.answered
    exact h.quietly rfl (congrArg Stand.parted? here).symm (heard.drop here tasks) (by simp)
  | forsake here tasks =>
    have parted := h.course.parted_of_stand (congrArg Stand.parted? here)
    have dropped := parted.drop here tasks
    rw [← List.append_nil past] at dropped
    exact h.quietly rfl (congrArg Stand.parted? here).symm dropped (by simp)
  | drop here =>
    have kept := h.course.kept_of_stand here
    have call : c.guard.dropCall? = some c.guard.releaseCall := if_neg (by simp [kept.live])
    refine h.part kept rfl rfl rfl nofun ?_ (by simp)
    rw [Custody.drop, kept.idle, call]
    exact .due
  | orphan here =>
    have kept := h.course.kept_of_stand here
    refine h.part kept rfl rfl rfl nofun ?_ (by simp)
    rw [Custody.drop, kept.idle]
    exact .orphaned
  | begin before after there =>
    obtain ⟨how, since, parted⟩ := h.course.parted_of_errands (by simp [there])
    refine h.quietly rfl rfl (parted.proceed fun ds left => ?_) (by simp)
    rw [there] at left
    exact left.begin.2
  | giveUp before after there => exact h.giveUp there
  | answered here before after there r told =>
    have parted := h.course.parted_of_stand (congrArg Stand.parted? here)
    refine h.quietly rfl rfl (parted.proceed fun ds left => ?_) (by simp)
    rw [there] at left
    rw [List.append_nil]
    exact left.answered

end Custody

/-! ## The course of a tenure -/

/-- What holds of a holder between any two steps. -/
def Holder.Sound (owner : String) (now : Nat) (ls : Leases) (past : List Noted) : Holder → Prop
  | absent => past = []
  | asking a _ done? => a.owner = owner ∧ Noted.Requests past ∧
      (done? = some true → ls.EndsBy a.resource owner (now + a.length))
  | pausing a _ => a.owner = owner ∧ Noted.Requests past
  | has c => c.Sound owner now ls past
  | failed => Noted.Requests past

namespace Custody

variable {owner : String} {now : Nat} {ls : Leases} {past : List Noted} {c : Custody}

/-- Time goes on. -/
theorem Sound.pass (h : c.Sound owner now ls past) : c.Sound owner (now + 1) ls past where
  own := h.own
  course := h.course
  ends := by
    refine h.ends.mono ?_
    unfold latest
    cases c.stand.parted? with
    | none => exact Nat.add_le_add_right (Nat.le_succ now) _
    | some parted => exact Nat.le_refl _
  without := h.without

/-- A guard that was granted now. -/
theorem sound_granted {a : Acquisition} (own : a.owner = owner) (first : Noted.Requests past)
    (ends : ls.EndsBy a.resource owner (now + a.length)) (since : Nat) :
    ({ guard := a.guard since now } : Custody).Sound owner now ls (past ++ [.granted]) := by
  have kept : ({ guard := a.guard since now } : Custody).Kept (past ++ [.granted]) :=
    ⟨rfl, rfl, rfl, past, [], first, nofun, rfl⟩
  exact ⟨own, .kept kept, ends, fun mem => absurd mem kept.not_gaveUp⟩

end Custody

namespace Holder

variable {owner : String} {now : Nat} {ls : Leases} {b : Backend} {past : List Noted} {t : Holder}

/-- Time goes on. -/
theorem Sound.pass (h : t.Sound owner now ls past) : t.Sound owner (now + 1) ls past := by
  cases t with
  | asking a since done? =>
    obtain ⟨own, first, ends⟩ := h
    exact ⟨own, first, fun granted => (ends granted).mono (Nat.add_le_add_right (Nat.le_succ now) _)⟩
  | has c => exact Custody.Sound.pass h
  | absent => exact h
  | pausing a next => exact h
  | failed => exact h

/-- Somebody else makes a call. -/
theorem Sound.outside (h : t.Sound owner now b.leases past) {call : Call} (other : call.lessee? ≠ some owner) :
    t.Sound owner now (b.perform now call).1.leases past := by
  have noRequest : ∀ r length, call ≠ .tryAcquire r owner length := fun _ _ same =>
    other (congrArg Call.lessee? same)
  have renewal : ∀ {P : Prop} (r length), call = .renew r owner length → P := fun _ _ same =>
    absurd (congrArg Call.lessee? same) other
  cases t with
  | asking a since done? =>
    obtain ⟨own, first, ends⟩ := h
    exact ⟨own, first, fun granted => Backend.endsBy_perform (ends granted) (noRequest _) fun _ => renewal _ _⟩
  | has c => exact Custody.Sound.perform h (noRequest _) fun _ => renewal _ _
  | absent => exact h
  | pausing a next => exact h
  | failed => exact h

end Holder

namespace Tenure

variable {owner : String} {s s' : Tenure} {ds : List Noted}

/-- What holds between any two steps. -/
def Sound (owner : String) (s : Tenure) : Prop := s.holder.Sound owner s.now s.backend.leases s.past

theorem sound_start (owner : String) (now : Nat) (b : Backend) : (start now b).Sound owner := rfl

/-- A holder hears the answer to an attempt. -/
theorem sound_judge (h : s.Sound owner) {a : Acquisition} {since : Nat} {done? : Option Bool}
    (here : s.holder = .asking a since done?) {r : Except Failure Bool} (told : Told done? r) :
    (s.judge a since r).Sound owner := by
  obtain ⟨own, first, ends⟩ : (Holder.asking a since done?).Sound owner s.now s.backend.leases s.past := here ▸ h
  show (Holder.judged a since s.now r).Sound owner s.now s.backend.leases (s.past ++ Holder.verdict a s.now r)
  unfold Holder.judged Holder.verdict
  match r with
  | .error f => exact (List.append_nil s.past).symm ▸ first
  | .ok true => exact Custody.sound_granted own first (ends told) since
  | .ok false =>
    have quiet : Noted.Requests (s.past ++ []) := (List.append_nil s.past).symm ▸ first
    by_cases pause : a.mayPause s.now = true
    · simp only [Acquisition.judge, pause, if_true]
      exact ⟨own, quiet⟩
    · simp only [Acquisition.judge, pause]
      exact quiet

/-- An attempt begins. -/
theorem sound_ask {a : Acquisition} (own : a.owner = owner) (first : Noted.Requests s.past) :
    (s.ask a).Sound owner := ⟨own, first.snoc a, nofun⟩

theorem Sound.step (h : s.Sound owner) (step : Step owner s ds s') : s'.Sound owner := by
  cases step with
  | pass => exact Holder.Sound.pass h
  | ask new own =>
    have nothing : s.past = [] := (new ▸ h : Holder.absent.Sound owner s.now s.backend.leases s.past)
    exact sound_ask own (nothing ▸ nofun)
  | @attempt a since here =>
    obtain ⟨own, first, -⟩ : (Holder.asking a since none).Sound owner s.now s.backend.leases s.past := here ▸ h
    refine ⟨own, first, fun granted => ?_⟩
    rw [← own]
    exact Backend.endsBy_tryAcquire (Option.some.inj granted)
  | judge here r told => exact sound_judge h here told
  | @resume a next here due =>
    obtain ⟨own, first⟩ : (Holder.pausing a next).Sound owner s.now s.backend.leases s.past := here ▸ h
    exact sound_ask own first
  | @custody c c' b notes here step =>
    have sound : c.Sound owner s.now s.backend.leases s.past :=
      (here ▸ h : (Holder.has c).Sound owner s.now s.backend.leases s.past)
    exact sound.step step
  | outside other => exact Holder.Sound.outside h other

theorem Sound.run (h : s.Sound owner) (run : Run (Step owner) s s') : s'.Sound owner :=
  run.keeps (fun _ _ _ h step => h.step step) h

end Tenure

namespace Custody

variable {owner : String} {now : Nat} {ls : Leases} {past : List Noted} {c : Custody} {how : Farewell} {since : Nat}

/-- What has been noted of a guard that has come to its end: the call that gives its lease up, unless no task
could make it or the task has not run, and no renewal. -/
theorem Sound.calls_of_parted (h : c.Sound owner now ls past) (parted : c.stand.parted? = some (how, since)) :
    ∃ before after, past = before ++ .parted how :: after ∧ Noted.releases before = [] ∧
      (how = .orphaned ∧ c.errands = [] ∧ Noted.calls after = [] ∨
        how = .dropped ∧ c.errands = [.due c.guard.releaseCall] ∧ Noted.calls after = [] ∨
        how ≠ .orphaned ∧ (∀ call, .due call ∉ c.errands) ∧ Noted.calls after = [c.guard.releaseCall]) := by
  obtain ⟨requests, renewals, after, first, more, order, left⟩ := (h.course.parted_of_stand parted).order
  refine ⟨requests ++ .granted :: renewals, after, order, ?_, ?_⟩
  · have rest : Noted.releases (.granted :: renewals) = Noted.releases renewals := rfl
    rw [Noted.releases_append, first.releases, rest, more.releases, List.append_nil]
  · generalize c.errands = errands at left
    cases left with
    | orphaned => exact .inl ⟨rfl, rfl, rfl⟩
    | due => exact .inr (.inl ⟨rfl, rfl, rfl⟩)
    | underWay can => exact .inr (.inr ⟨can, by simp, rfl⟩)
    | done can => exact .inr (.inr ⟨can, by simp, rfl⟩)
    | closed can known => rcases known with rfl | rfl <;> exact .inr (.inr ⟨can, by simp, rfl⟩)

/-- A grant is followed by one call that gives the lease up, once the guard is no more that was released. -/
theorem Sound.releases_of_gone (h : c.Sound owner now ls past) (gone : c.stand = .gone .released since)
    {before after : List Noted} (split : past = before ++ .granted :: after) :
    Noted.releases before = [] ∧ Noted.releases after = [c.guard.releaseCall] := by
  obtain ⟨requests, renewals, rest, first, more, order, left⟩ :=
    (h.course.parted_of_stand (congrArg Stand.parted? gone)).order
  generalize c.errands = errands at left
  have tail : .granted ∉ rest ∧ Noted.releases rest = [c.guard.releaseCall] := by
    cases left with
    | underWay can => exact ⟨by simp, rfl⟩
    | done can => exact ⟨by simp, rfl⟩
    | closed can known => rcases known with rfl | rfl <;> exact ⟨by simp, rfl⟩
  have neither := Noted.not_mem_of_ne_asked (d := .granted) nofun
  have once : .granted ∉ renewals ++ .parted .released :: rest := by
    simp [neither.2 more, tail.1]
  rw [split, List.append_assoc, List.cons_append] at order
  obtain ⟨rfl, -, rfl⟩ := (List.append_cons_inj_of_notMem (neither.1 first) once).1 order.symm
  have parted : Noted.releases (.parted .released :: rest) = Noted.releases rest := rfl
  rw [Noted.releases_append, parted, first.releases, more.releases, tail.2]
  exact ⟨rfl, rfl⟩

end Custody
end CertWatch
