import CertWatch.Proofs.Allocation.Stages
import CertWatch.Proofs.Config
import CertWatch.Proofs.Lease.Custody

/-!
# An allocation that nobody disturbs

One allocation, with a store in which nobody else writes its key and a lease service where nobody else asks for
its lease. Its calls are not answered with failures, and time does not go so far that its lease could lapse
while it needs it. Then what is stored at the beginning decides what becomes of it: a prefix that can be used is
adopted, and anything else is replaced.
-/

namespace CertWatch
set_option autoImplicit false

/-- An allocation with what it is connected to. -/
structure Alone where
  now : Nat
  backend : Backend
  stage : Stage
  /-- What the call under way is going to be answered with, once it has taken effect. -/
  answer? : Option ((call : Call) × call.Answer) := none
  guard? : Option Guard := none
  /-- What the service has done about a renewal under way. -/
  renewed? : Option Bool := none
  /-- The calls that were begun, in their order. -/
  calls : List Call := []

/-- The call that begins with a stage. -/
def Stage.begun (c : NamespaceConfig) (s : Stage) : List Call :=
  match s.want c with
  | .answer call => [call]
  | _ => []

/-- How many stages may still come, if nothing has to be waited for. -/
def Stage.rank : Stage → Nat
  | reading => 5
  | asking .. => 4
  | pausing .. => 4
  | rereading => 3
  | writing _ => 2
  | releasing _ => 1
  | finished _ => 0

namespace Alone

/-- The allocation begins. -/
def start (c : NamespaceConfig) (now : Nat) (b : Backend) : Alone where
  now
  backend := b
  stage := .start c
  calls := (Stage.start c).begun c

/-- Whether the guard holds the lease. -/
def held (s : Alone) : Bool := s.guard?.any fun g => g.isHeld s.now

/-- Whether time can go on without the lease lapsing while it is needed. -/
def MayPass (s : Alone) : Prop :=
  match s.stage with
  | .asking a since => s.now + 1 < since + a.length
  | .rereading | .writing _ => ∀ g ∈ s.guard?, s.now + 1 < g.expiresAt
  | _ => True

/-- The steps of an allocation that nobody disturbs, with the calls that begin. It has an owner for itself and a
prefix that it would write. -/
inductive Step (c : NamespaceConfig) (owner : String) (fresh : StoredPrefix) : Alone → List Call → Alone → Prop where
  | pass {s : Alone} (inTime : s.MayPass) : Step c owner fresh s [] { s with now := s.now + 1 }
  /-- The call under way takes effect. -/
  | effect {s : Alone} {call : Call} (wants : s.stage.want c = .answer call) (new : s.answer? = none) :
      Step c owner fresh s []
        { s with
          backend := (s.backend.perform s.now call).1
          answer? := some ⟨call, (s.backend.perform s.now call).2⟩ }
  /-- The call under way is answered. -/
  | hear {s : Alone} {call : Call} {answer : call.Answer} (there : s.answer? = some ⟨call, answer⟩) {next : Stage}
      (after : next = s.stage.answered c ⟨s.now, s.held, owner, fresh⟩ call (.ok answer)) :
      Step c owner fresh s (next.begun c)
        { s with
          stage := next
          answer? := none
          guard? := (s.stage.grant? s.now next).or s.guard?
          calls := s.calls ++ next.begun c }
  | resume {s : Alone} {a : Acquisition} {next : Nat} (here : s.stage = .pausing a next)
      (due : Clock.reached s.now next = true) :
      Step c owner fresh s [a.attempt]
        { s with stage := s.stage.resumed s.now, calls := s.calls ++ [a.attempt] }
  | release {s : Alone} {o : Except Failure String} {g : Guard} (here : s.stage = .releasing o)
      (guard : s.guard? = some g) (kept : g.released = false) :
      Step c owner fresh s [g.releaseCall]
        { s with guard? := some g.release, calls := s.calls ++ [g.releaseCall] }
  /-- The release takes effect and is answered. -/
  | finish {s : Alone} {o : Except Failure String} {g : Guard} (here : s.stage = .releasing o)
      (guard : s.guard? = some g) (released : g.released = true) :
      Step c owner fresh s []
        { s with
          stage := (Stage.afterRelease o (.ok ())).1
          backend := (s.backend.perform s.now g.releaseCall).1
          guard? := none }
  /-- The guard asks for a renewal. -/
  | tick {s : Alone} {g : Guard} {due : Nat} (guard : s.guard? = some g) (isDue : g.due? = some due)
      (rung : Clock.reached s.now due = true) :
      Step c owner fresh s [g.renewCall]
        { s with guard? := some (g.tick s.now), renewed? := none, calls := s.calls ++ [g.renewCall] }
  /-- The renewal takes effect. -/
  | renew {s : Alone} {g : Guard} {ticker : Ticker} {since : Nat} (guard : s.guard? = some g)
      (asking : g.renewal = .asking ticker since) (new : s.renewed? = none) :
      Step c owner fresh s []
        { s with
          backend := (s.backend.perform s.now g.renewCall).1
          renewed? := some (s.backend.perform s.now g.renewCall).2 }
  /-- The renewal is answered. -/
  | told {s : Alone} {g : Guard} {r : Bool} (guard : s.guard? = some g) (there : s.renewed? = some r) :
      Step c owner fresh s []
        { s with guard? := some (g.answered s.now (.ok r)).1, renewed? := none }
  /-- Somebody else makes a call, about other things. -/
  | outside {s : Alone} {call : Call} (other : call.lessee? ≠ some owner)
      (spares : ∀ value, call ≠ .set c.prefixKey value)
      (elsewhere : call.lessee?.isSome = true → call.subject ≠ c.lockResource) :
      Step c owner fresh s [] { s with backend := (s.backend.perform s.now call).1 }

/-- What is stored at the key of the allocation. -/
def stored (c : NamespaceConfig) (s : Alone) : Option Bytes := s.backend.store.get? c.prefixKey

/-- The writes among the calls. -/
def writes (s : Alone) : List Call := s.calls.filter fun call => call.method = .set

/-- Nobody has the lease. -/
def Free (c : NamespaceConfig) (s : Alone) : Prop := s.backend.leases.owner? s.now c.lockResource = none

/-- More than the first reading was begun. -/
def Engaged (c : NamespaceConfig) (s : Alone) : Prop := ∃ call more, s.calls = .get c.prefixKey :: call :: more

/-- The guard has the lease for a while, and so it has at the service; a renewal under way can only be granted. -/
structure Leased (c : NamespaceConfig) (owner : String) (s : Alone) (g : Guard) : Prop where
  guard : s.guard? = some g
  terms : g.resource = c.lockResource ∧ g.owner = owner
  kept : g.lost = false ∧ g.released = false
  inTime : s.now < g.expiresAt ∧ g.expiresAt ≤ s.now + g.length
  covered : s.backend.leases.Covers s.now c.lockResource owner g.expiresAt
  renewing : ∀ ticker since, g.renewal = .asking ticker since → since ≤ s.now ∧ g.expiresAt ≤ since + g.length ∧
    (s.renewed? = none ∨
      s.renewed? = some true ∧ s.backend.leases.Covers s.now c.lockResource owner (since + g.length))

/-- What holds between any two steps, by how far the allocation has come. `initial` is what was stored at the
beginning. -/
inductive Sound (c : NamespaceConfig) (owner : String) (fresh : StoredPrefix) (initial : Option Bytes) (s : Alone) :
    Prop where
  | reading (here : s.stage = .reading) (stored : s.stored c = initial) (free : s.Free c) (unguarded : s.guard? = none)
      (calls : s.calls = [.get c.prefixKey]) (answer : s.answer? = none ∨ s.answer? = some ⟨.get c.prefixKey, initial⟩)
  | asking {a : Acquisition} {since : Nat} (here : s.stage = .asking a since) (wanted : a = Stage.wanted c owner since)
      (lacking : StoredPrefix.usableIn? c.refreshBefore initial = none) (stored : s.stored c = initial)
      (unguarded : s.guard? = none) (engaged : s.Engaged c) (writes : s.writes = [])
      (inTime : since ≤ s.now ∧ s.now < since + a.length)
      (answer : s.answer? = none ∧ s.Free c ∨ s.answer? = some ⟨a.attempt, true⟩ ∧
        s.backend.leases.Covers s.now c.lockResource owner (since + a.length))
  | rereading (here : s.stage = .rereading) (lacking : StoredPrefix.usableIn? c.refreshBefore initial = none)
      (stored : s.stored c = initial) (leased : ∃ g, s.Leased c owner g) (engaged : s.Engaged c)
      (writes : s.writes = []) (answer : s.answer? = none ∨ s.answer? = some ⟨.get c.prefixKey, initial⟩)
  | writing (here : s.stage = .writing fresh) (lacking : StoredPrefix.usableIn? c.refreshBefore initial = none)
      (leased : ∃ g, s.Leased c owner g) (engaged : s.Engaged c) (writes : s.writes = [.set c.prefixKey fresh.encode])
      (answer : s.answer? = none ∨
        s.answer? = some ⟨.set c.prefixKey fresh.encode, ()⟩ ∧ s.stored c = some fresh.encode)
  | releasing (here : s.stage = .releasing (.ok fresh.value))
      (lacking : StoredPrefix.usableIn? c.refreshBefore initial = none) (stored : s.stored c = some fresh.encode)
      (guarded : ∃ g, s.guard? = some g) (engaged : s.Engaged c) (writes : s.writes = [.set c.prefixKey fresh.encode])
      (answer : s.answer? = none)
  | adopted {v : String} (here : s.stage = .finished (.ok v))
      (found : StoredPrefix.usableIn? c.refreshBefore initial = some v) (stored : s.stored c = initial)
      (unguarded : s.guard? = none) (calls : s.calls = [.get c.prefixKey]) (answer : s.answer? = none)
  | created (here : s.stage = .finished (.ok fresh.value))
      (lacking : StoredPrefix.usableIn? c.refreshBefore initial = none) (stored : s.stored c = some fresh.encode)
      (unguarded : s.guard? = none) (engaged : s.Engaged c) (writes : s.writes = [.set c.prefixKey fresh.encode])
      (answer : s.answer? = none)

variable {c : NamespaceConfig} {owner : String} {fresh : StoredPrefix} {initial : Option Bytes} {s s' : Alone}
  {g : Guard} {ds : List Call}

/-! ## What happens beside the allocation -/

/-- A guard that has its lease holds it. -/
theorem Leased.held (h : s.Leased c owner g) : s.held = true := by
  simp [Alone.held, h.guard, Guard.isHeld, h.kept.1, h.kept.2, h.inTime.1]

theorem Leased.owned (h : s.Leased c owner g) : s.backend.leases.owner? s.now c.lockResource = some owner :=
  h.covered.owner? h.inTime.1

/-- Nothing of this changes with the call under way or with what is stored. -/
theorem Leased.like (h : s.Leased c owner g) (now : s'.now = s.now) (leases : s'.backend.leases = s.backend.leases)
    (guard : s'.guard? = s.guard?) (renewed : s'.renewed? = s.renewed?) : s'.Leased c owner g where
  guard := guard.trans h.guard
  terms := h.terms
  kept := h.kept
  inTime := now ▸ h.inTime
  covered := by rw [now, leases]; exact h.covered
  renewing := by rw [now, leases, renewed]; exact h.renewing

/-- Time goes on. -/
theorem Leased.pass (h : s.Leased c owner g) (inTime : s.now + 1 < g.expiresAt) :
    Leased c owner { s with now := s.now + 1 } g where
  guard := h.guard
  terms := h.terms
  kept := h.kept
  inTime := ⟨inTime, Nat.le_trans h.inTime.2 (Nat.add_le_add_right (Nat.le_succ _) _)⟩
  covered := h.covered.later (Nat.le_succ _)
  renewing := by
    intro ticker since asking
    obtain ⟨early, late, answer⟩ := h.renewing ticker since asking
    refine ⟨Nat.le_succ_of_le early, late, ?_⟩
    rcases answer with none | ⟨granted, covered⟩
    · exact .inl none
    · exact .inr ⟨granted, covered.later (Nat.le_succ _)⟩

/-- A renewal is asked for. -/
theorem Leased.tick (h : s.Leased c owner g) {due : Nat} (isDue : g.due? = some due) (calls : List Call) :
    Leased c owner { s with guard? := some (g.tick s.now), renewed? := none, calls } (g.tick s.now) := by
  cases renewal : g.renewal with
  | waiting t =>
    have ticked : g.tick s.now = { g with renewal := .asking (t.take s.now) s.now } := by
      rw [Guard.tick, renewal]
    rw [ticked]
    refine ⟨rfl, h.terms, h.kept, h.inTime, h.covered, ?_⟩
    rintro _ _ ⟨⟩
    exact ⟨Nat.le_refl _, h.inTime.2, .inl rfl⟩
  | asking t since => simp [Guard.due?, renewal] at isDue
  | ended => simp [Guard.due?, renewal] at isDue

/-- A renewal takes effect: it is granted, since nobody else has the lease. -/
theorem Leased.renew (h : s.Leased c owner g) :
    Leased c owner { s with
      backend := (s.backend.perform s.now g.renewCall).1
      renewed? := some (s.backend.perform s.now g.renewCall).2 } g := by
  have granted : (s.backend.leases.renew s.now g.resource g.owner g.length).2 = true := by
    rw [h.terms.1, h.terms.2, Leases.renew, if_pos h.owned]
  have covers {t : Nat} (le : t ≤ s.now + g.length) :
      (s.backend.leases.renew s.now g.resource g.owner g.length).1.Covers s.now c.lockResource owner t := by
    rw [h.terms.1, h.terms.2] at granted ⊢
    exact Leases.covers_renew granted le
  refine ⟨h.guard, h.terms, h.kept, h.inTime, covers h.inTime.2, fun ticker' since' asking' => ?_⟩
  obtain ⟨early, late, -⟩ := h.renewing ticker' since' asking'
  exact ⟨early, late, .inr ⟨congrArg some granted, covers (Nat.add_le_add_right early _)⟩⟩

/-- A renewal is answered: it was granted, and the lease lasts longer. -/
theorem Leased.told (h : s.Leased c owner g) {r : Bool} (there : s.renewed? = some r) :
    Leased c owner { s with guard? := some (g.answered s.now (.ok r)).1, renewed? := none }
      (g.answered s.now (.ok r)).1 := by
  cases renewal : g.renewal with
  | asking ticker since =>
    obtain ⟨early, late, none | ⟨granted, covered⟩⟩ := h.renewing ticker since renewal
    · cases none.symm.trans there
    cases granted.symm.trans there
    have answered : (g.answered s.now (.ok true)).1 =
        { g with expiresAt := since + g.length, renewal := .waiting ticker } := by
      rw [Guard.answered, renewal]
    rw [answered]
    refine ⟨rfl, h.terms, h.kept, ⟨Nat.lt_of_lt_of_le h.inTime.1 late, Nat.add_le_add_right early _⟩, covered, nofun⟩
  | waiting ticker =>
    have same : (g.answered s.now (.ok r)).1 = g := by rw [Guard.answered, renewal]
    rw [same]
    exact ⟨rfl, h.terms, h.kept, h.inTime, h.covered, fun _ _ asking => nomatch renewal.symm.trans asking⟩
  | ended =>
    have same : (g.answered s.now (.ok r)).1 = g := by rw [Guard.answered, renewal]
    rw [same]
    exact ⟨rfl, h.terms, h.kept, h.inTime, h.covered, fun _ _ asking => nomatch renewal.symm.trans asking⟩

/-- Calls of others take nothing away from an owner. -/
theorem Leased.outside (h : s.Leased c owner g) {call : Call} (other : call.lessee? ≠ some owner) :
    Leased c owner { s with backend := (s.backend.perform s.now call).1 } g where
  guard := h.guard
  terms := h.terms
  kept := h.kept
  inTime := h.inTime
  covered := Backend.covers_perform h.covered fun same => absurd same other
  renewing := by
    intro ticker since asking
    obtain ⟨early, late, answer⟩ := h.renewing ticker since asking
    refine ⟨early, late, ?_⟩
    rcases answer with none | ⟨granted, covered⟩
    · exact .inl none
    · exact .inr ⟨granted, Backend.covers_perform covered fun same => absurd same other⟩

/-- A lease that nobody has is not taken by a call about other things. -/
theorem Free.outside (h : s.Free c) {call : Call}
    (elsewhere : call.lessee?.isSome = true → call.subject ≠ c.lockResource) :
    Free c { s with backend := (s.backend.perform s.now call).1 } := by
  by_contra taken
  obtain ⟨other, owned⟩ := Option.ne_none_iff_exists'.1 taken
  obtain ⟨e, there, live⟩ := Leases.owner?_eq_some_iff.1 owned
  rcases Backend.get?_of_perform there with before | ⟨length, -, rfl | ⟨rfl, -⟩⟩
  · have owned := Leases.owner?_eq_some_iff.2 ⟨e, before, live⟩
    cases h.symm.trans owned
  · exact elsewhere rfl rfl
  · exact elsewhere rfl rfl

/-- Something happened in an instant that is not the allocation's own doing: its guard was looked after, or
others made calls. -/
structure Beside (c : NamespaceConfig) (owner : String) (s s' : Alone) : Prop where
  now : s'.now = s.now
  stage : s'.stage = s.stage
  answer? : s'.answer? = s.answer?
  stored : s'.stored c = s.stored c
  leased : ∀ g, s.Leased c owner g → ∃ g', s'.Leased c owner g'
  guarded : ∀ g, s.guard? = some g → ∃ g', s'.guard? = some g'
  unguarded : s.guard? = none → s'.guard? = none ∧ s'.calls = s.calls ∧ (s.Free c → s'.Free c) ∧
    ∀ t, s.backend.leases.Covers s.now c.lockResource owner t → s'.backend.leases.Covers s.now c.lockResource owner t
  calls : ∃ more, s'.calls = s.calls ++ more ∧ ∀ call ∈ more, call.method ≠ .set

theorem Beside.engaged (h : Beside c owner s s') (engaged : s.Engaged c) : s'.Engaged c := by
  obtain ⟨call, rest, calls⟩ := engaged
  obtain ⟨more, extended, -⟩ := h.calls
  exact ⟨call, rest ++ more, by rw [extended, calls]; rfl⟩

theorem Beside.writes (h : Beside c owner s s') : s'.writes = s.writes := by
  obtain ⟨more, extended, others⟩ := h.calls
  have none : more.filter (fun call => call.method = .set) = [] :=
    List.filter_eq_nil_iff.2 fun call among => by simpa using others call among
  rw [Alone.writes, extended, List.filter_append, none, List.append_nil]
  rfl

theorem Sound.beside (h : s.Sound c owner fresh initial) (beside : Beside c owner s s') :
    s'.Sound c owner fresh initial := by
  have writes := beside.writes
  cases h with
  | reading here stored free unguarded calls answer =>
    obtain ⟨unguarded', calls', free', -⟩ := beside.unguarded unguarded
    exact .reading (beside.stage.trans here) (beside.stored.trans stored) (free' free) unguarded' (calls'.trans calls)
      (beside.answer? ▸ answer)
  | asking here wanted lacking stored unguarded engaged none inTime answer =>
    obtain ⟨unguarded', -, free, covers⟩ := beside.unguarded unguarded
    refine .asking (beside.stage.trans here) wanted lacking (beside.stored.trans stored) unguarded'
      (beside.engaged engaged) (writes.trans none) (beside.now ▸ inTime) ?_
    rw [beside.answer?, beside.now]
    exact answer.imp (fun unanswered => ⟨unanswered.1, free unanswered.2⟩)
      fun granted => ⟨granted.1, covers _ granted.2⟩
  | rereading here lacking stored leased engaged none answer =>
    obtain ⟨g, leased⟩ := leased
    exact .rereading (beside.stage.trans here) lacking (beside.stored.trans stored) (beside.leased g leased)
      (beside.engaged engaged) (writes.trans none) (beside.answer? ▸ answer)
  | writing here lacking leased engaged own answer =>
    obtain ⟨g, leased⟩ := leased
    refine .writing (beside.stage.trans here) lacking (beside.leased g leased) (beside.engaged engaged)
      (writes.trans own) ?_
    rw [beside.answer?, beside.stored]
    exact answer
  | releasing here lacking stored guarded engaged own answer =>
    obtain ⟨g, guard⟩ := guarded
    exact .releasing (beside.stage.trans here) lacking (beside.stored.trans stored) (beside.guarded g guard)
      (beside.engaged engaged) (writes.trans own) (beside.answer?.trans answer)
  | adopted here found stored unguarded calls answer =>
    obtain ⟨unguarded', calls', -⟩ := beside.unguarded unguarded
    exact .adopted (beside.stage.trans here) found (beside.stored.trans stored) unguarded' (calls'.trans calls)
      (beside.answer?.trans answer)
  | created here lacking stored unguarded engaged own answer =>
    exact .created (beside.stage.trans here) lacking (beside.stored.trans stored) (beside.unguarded unguarded).1
      (beside.engaged engaged) (writes.trans own) (beside.answer?.trans answer)

/-- The guard is looked after: its renewal is asked for, takes effect or is answered. -/
theorem beside_guarded {g' : Guard} {b : Backend} {r : Option Bool} {more : List Call} (guard : s.guard? = some g)
    (stored : b.store.get? c.prefixKey = s.stored c) (others : ∀ call ∈ more, call.method ≠ .set)
    (leased : s.Leased c owner g → Leased c owner
      { s with backend := b, guard? := some g', renewed? := r, calls := s.calls ++ more } g') :
    Beside c owner s { s with backend := b, guard? := some g', renewed? := r, calls := s.calls ++ more } where
  now := rfl
  stage := rfl
  answer? := rfl
  stored := stored
  leased := by
    intro g'' there
    cases there.guard.symm.trans guard
    exact ⟨g', leased there⟩
  guarded := fun _ _ => ⟨g', rfl⟩
  unguarded := fun none => nomatch none.symm.trans guard
  calls := ⟨more, rfl, others⟩

theorem Sound.tick (h : s.Sound c owner fresh initial) {due : Nat} (guard : s.guard? = some g)
    (isDue : g.due? = some due) : Sound c owner fresh initial
      { s with guard? := some (g.tick s.now), renewed? := none, calls := s.calls ++ [g.renewCall] } :=
  h.beside (beside_guarded guard rfl (by simp [Guard.renewCall, Call.method]) fun leased => leased.tick isDue _)

theorem Sound.renew (h : s.Sound c owner fresh initial) (guard : s.guard? = some g) :
    Sound c owner fresh initial
      { s with
        backend := (s.backend.perform s.now g.renewCall).1
        renewed? := some (s.backend.perform s.now g.renewCall).2 } := by
  have leased : s.Leased c owner g → Leased c owner { s with
      backend := (s.backend.perform s.now g.renewCall).1, guard? := some g
      renewed? := some (s.backend.perform s.now g.renewCall).2, calls := s.calls ++ [] } g := by
    intro leased
    rw [List.append_nil, ← guard]
    exact leased.renew
  have spares (value : Bytes) : g.renewCall ≠ .set c.prefixKey value := by simp [Guard.renewCall]
  have sound := h.beside (beside_guarded guard (Backend.get?_store_perform _ _ spares) (List.forall_mem_nil _) leased)
  rw [List.append_nil, ← guard] at sound
  exact sound

theorem Sound.told (h : s.Sound c owner fresh initial) {r : Bool} (guard : s.guard? = some g)
    (there : s.renewed? = some r) : Sound c owner fresh initial
      { s with guard? := some (g.answered s.now (.ok r)).1, renewed? := none } := by
  have leased : s.Leased c owner g → Leased c owner { s with
      guard? := some (g.answered s.now (.ok r)).1, renewed? := none, calls := s.calls ++ [] }
        (g.answered s.now (.ok r)).1 := by
    intro leased
    rw [List.append_nil]
    exact leased.told there
  have sound := h.beside (beside_guarded guard rfl (List.forall_mem_nil _) leased)
  rw [List.append_nil] at sound
  exact sound

theorem Sound.outside (h : s.Sound c owner fresh initial) {call : Call} (other : call.lessee? ≠ some owner)
    (spares : ∀ value, call ≠ .set c.prefixKey value)
    (elsewhere : call.lessee?.isSome = true → call.subject ≠ c.lockResource) :
    Sound c owner fresh initial { s with backend := (s.backend.perform s.now call).1 } := by
  refine h.beside ⟨rfl, rfl, rfl, Backend.get?_store_perform _ _ spares, ?_, ?_, ?_, [], by simp, nofun⟩
  · exact fun g leased => ⟨g, leased.outside other⟩
  · exact fun g guard => ⟨g, guard⟩
  · refine fun unguarded => ⟨unguarded, rfl, fun free => free.outside elsewhere, fun t covered => ?_⟩
    exact Backend.covers_perform covered fun same => absurd same other

/-! ## What the allocation does -/

theorem Free.pass (h : s.Free c) : Free c { s with now := s.now + 1 } := by
  by_contra taken
  obtain ⟨other, owned⟩ := Option.ne_none_iff_exists'.1 taken
  cases h.symm.trans (Leases.owner?_of_later owned (Nat.le_succ _))

theorem Sound.pass (h : s.Sound c owner fresh initial) (inTime : s.MayPass) :
    Sound c owner fresh initial { s with now := s.now + 1 } := by
  unfold MayPass at inTime
  cases h with
  | reading here stored free unguarded calls answer =>
    exact .reading here stored free.pass unguarded calls answer
  | asking here wanted lacking stored unguarded engaged none since answer =>
    simp only [here] at inTime
    refine .asking here wanted lacking stored unguarded engaged none ⟨Nat.le_succ_of_le since.1, inTime⟩ ?_
    exact answer.imp (fun unanswered => ⟨unanswered.1, unanswered.2.pass⟩)
      fun granted => ⟨granted.1, granted.2.later (Nat.le_succ _)⟩
  | rereading here lacking stored leased engaged none answer =>
    simp only [here] at inTime
    obtain ⟨g, leased⟩ := leased
    exact .rereading here lacking stored ⟨g, leased.pass (inTime g leased.guard)⟩ engaged none answer
  | writing here lacking leased engaged own answer =>
    simp only [here] at inTime
    obtain ⟨g, leased⟩ := leased
    exact .writing here lacking ⟨g, leased.pass (inTime g leased.guard)⟩ engaged own answer
  | releasing here lacking stored guarded engaged own answer =>
    exact .releasing here lacking stored guarded engaged own answer
  | adopted here found stored unguarded calls answer => exact .adopted here found stored unguarded calls answer
  | created here lacking stored unguarded engaged own answer =>
    exact .created here lacking stored unguarded engaged own answer

/-- A call of the allocation takes effect. Nobody has the lease when it is asked for, so it is granted. -/
theorem Sound.effect (h : s.Sound c owner fresh initial) {call : Call} (wants : s.stage.want c = .answer call)
    (new : s.answer? = none) : Sound c owner fresh initial
      { s with
        backend := (s.backend.perform s.now call).1
        answer? := some ⟨call, (s.backend.perform s.now call).2⟩ } := by
  cases h with
  | reading here stored free unguarded calls answer =>
    rw [here] at wants
    cases wants
    refine .reading here stored free unguarded calls (.inr ?_)
    rw [← stored]
    rfl
  | @asking a since here wanted lacking stored unguarded engaged none inTime answer =>
    rw [here] at wants
    cases wants
    obtain ⟨-, unowned⟩ | ⟨granted, -⟩ := answer
    case inr => cases new.symm.trans granted
    have granted : (s.backend.leases.tryAcquire s.now a.resource a.owner a.length).2 = true := by
      have free : s.backend.leases.allows s.now a.resource a.owner = true := by
        rw [wanted]
        exact Leases.allows_iff.2 fun other owned => nomatch unowned.symm.trans owned
      rw [Leases.tryAcquire, if_pos free]
    have covers := Leases.covers_tryAcquire granted (Nat.add_le_add_right inTime.1 a.length)
    have spares (value : Bytes) : a.attempt ≠ .set c.prefixKey value := by simp [Acquisition.attempt]
    refine .asking here wanted lacking ((Backend.get?_store_perform _ _ spares).trans stored) unguarded engaged none
      inTime (.inr ⟨?_, ?_⟩)
    · exact congrArg (fun r : Bool => some (Sigma.mk (β := Call.Answer) a.attempt r)) granted
    · rw [wanted] at covers ⊢
      exact covers
  | rereading here lacking stored leased engaged none answer =>
    rw [here] at wants
    cases wants
    obtain ⟨g, leased⟩ := leased
    refine .rereading here lacking stored ⟨g, leased.like rfl rfl rfl rfl⟩ engaged none (.inr ?_)
    rw [← stored]
    rfl
  | writing here lacking leased engaged own answer =>
    rw [here] at wants
    cases wants
    obtain ⟨g, leased⟩ := leased
    exact .writing here lacking ⟨g, leased.like rfl rfl rfl rfl⟩ engaged own
      (.inr ⟨rfl, Table.get?_insert_self _ _ _⟩)
  | releasing here lacking stored guarded engaged own answer =>
    rw [here] at wants
    cases wants
  | adopted here found stored unguarded calls answer =>
    rw [here] at wants
    cases wants
  | created here lacking stored unguarded engaged own answer =>
    rw [here] at wants
    cases wants

theorem Engaged.more (h : s.Engaged c) {calls : List Call} (more : s'.calls = s.calls ++ calls) : s'.Engaged c := by
  obtain ⟨call, rest, first⟩ := h
  exact ⟨call, rest ++ calls, by rw [more, first]; rfl⟩

theorem writes_more {calls : List Call} (more : s'.calls = s.calls ++ calls) :
    s'.writes = s.writes ++ calls.filter fun call => call.method = .set := by
  rw [writes, more, List.filter_append]
  rfl

/-- A call of the allocation is answered. What is stored decides after the first reading, and the lease, which is
held all along, lets the write go on. -/
theorem Sound.hear (h : s.Sound c owner fresh initial) (lasts : 0 < c.leaseSeconds) {call : Call} {answer : call.Answer}
    (there : s.answer? = some ⟨call, answer⟩) {next : Stage}
    (after : next = s.stage.answered c ⟨s.now, s.held, owner, fresh⟩ call (.ok answer)) :
    Sound c owner fresh initial
      { s with
        stage := next
        answer? := none
        guard? := (s.stage.grant? s.now next).or s.guard?
        calls := s.calls ++ next.begun c } := by
  cases h with
  | reading here stored free unguarded calls answer =>
    rw [here] at after ⊢
    obtain none | told := answer
    · cases none.symm.trans there
    cases told.symm.trans there
    cases usable : StoredPrefix.usableIn? c.refreshBefore initial with
    | some v =>
      obtain rfl := after.trans (Stage.afterRead_of_some usable)
      exact .adopted rfl usable stored unguarded (by rw [calls]; rfl) rfl
    | none =>
      obtain rfl := after.trans (Stage.afterRead_of_none usable)
      have length : 0 < (Stage.wanted c owner s.now).length := Nat.mul_pos lasts Clock.second_pos
      have begun : s.calls ++ Stage.begun c (.asking (Stage.wanted c owner s.now) s.now) =
          [.get c.prefixKey, (Stage.wanted c owner s.now).attempt] := by rw [calls]; rfl
      refine .asking rfl rfl usable stored unguarded ⟨_, [], begun⟩ ?_ ⟨Nat.le_refl _, ?_⟩ (.inl ⟨rfl, free⟩)
      · rw [writes, begun]
        rfl
      · exact Nat.lt_add_of_pos_right length
  | @asking a since here wanted lacking stored unguarded engaged none inTime answer =>
    rw [here] at after ⊢
    obtain ⟨unanswered, -⟩ | ⟨granted, covered⟩ := answer
    · cases unanswered.symm.trans there
    cases granted.symm.trans there
    obtain rfl : next = .rereading := after
    have begun : s.calls ++ Stage.begun c .rereading = s.calls ++ [.get c.prefixKey] := rfl
    refine .rereading rfl lacking stored ⟨a.guard since s.now, rfl, ?_, ⟨rfl, rfl⟩, ⟨inTime.2, ?_⟩, covered, nofun⟩
      (engaged.more begun) ((writes_more begun).trans (by rw [none]; rfl)) (.inl rfl)
    · rw [wanted]
      exact ⟨rfl, rfl⟩
    · exact Nat.add_le_add_right inTime.1 _
  | rereading here lacking stored leased engaged none answer =>
    rw [here] at after ⊢
    obtain unanswered | told := answer
    · cases unanswered.symm.trans there
    cases told.symm.trans there
    obtain ⟨g, leased⟩ := leased
    rw [leased.held] at after
    obtain rfl : next = .writing fresh := after.trans (Stage.afterReread_of_none lacking)
    have begun : s.calls ++ Stage.begun c (.writing fresh) = s.calls ++ [.set c.prefixKey fresh.encode] := rfl
    exact .writing rfl lacking ⟨g, leased.like rfl rfl rfl rfl⟩ (engaged.more begun)
      ((writes_more begun).trans (by rw [none]; rfl)) (.inl rfl)
  | writing here lacking leased engaged own answer =>
    rw [here] at after ⊢
    obtain unanswered | ⟨told, stored⟩ := answer
    · cases unanswered.symm.trans there
    cases told.symm.trans there
    obtain ⟨g, leased⟩ := leased
    rw [leased.held] at after
    obtain rfl : next = .releasing (.ok fresh.value) := after
    have begun : s.calls ++ Stage.begun c (.releasing (.ok fresh.value)) = s.calls ++ [] := rfl
    exact .releasing rfl lacking stored ⟨g, leased.guard⟩ (engaged.more begun)
      ((writes_more begun).trans (by rw [own]; rfl)) rfl
  | releasing here lacking stored guarded engaged own answer => cases answer.symm.trans there
  | adopted here found stored unguarded calls answer => cases answer.symm.trans there
  | created here lacking stored unguarded engaged own answer => cases answer.symm.trans there

/-- What is known of an allocation that gives its lease up. -/
theorem Sound.of_releasing (h : s.Sound c owner fresh initial) {o : Except Failure String}
    (here : s.stage = .releasing o) : o = .ok fresh.value ∧
      StoredPrefix.usableIn? c.refreshBefore initial = none ∧ s.stored c = some fresh.encode ∧
      (∃ g, s.guard? = some g) ∧ s.Engaged c ∧ s.writes = [.set c.prefixKey fresh.encode] ∧ s.answer? = none := by
  cases h with
  | releasing there lacking stored guarded engaged own answer =>
    cases here.symm.trans there
    exact ⟨rfl, lacking, stored, guarded, engaged, own, answer⟩
  | _ there => cases here.symm.trans there

/-- It never comes to a pause. -/
theorem Sound.not_pausing (h : s.Sound c owner fresh initial) (a : Acquisition) (next : Nat) :
    s.stage ≠ .pausing a next := by
  intro here
  cases h with
  | _ there => cases here.symm.trans there

theorem Sound.step (h : s.Sound c owner fresh initial) (lasts : 0 < c.leaseSeconds)
    (step : Step c owner fresh s ds s') : s'.Sound c owner fresh initial := by
  cases step with
  | pass inTime => exact h.pass inTime
  | effect wants new => exact h.effect wants new
  | hear there after => exact h.hear lasts there after
  | resume here due => exact absurd here (h.not_pausing _ _)
  | @release o g here guard kept =>
    obtain ⟨rfl, lacking, stored, guarded, engaged, own, answer⟩ := h.of_releasing here
    have calls : s.calls ++ [g.releaseCall] = s.calls ++ [g.releaseCall] := rfl
    exact .releasing here lacking stored ⟨_, rfl⟩ (engaged.more calls)
      ((writes_more calls).trans (by rw [own]; rfl)) answer
  | @finish o g here guard released =>
    obtain ⟨rfl, lacking, stored, guarded, engaged, own, answer⟩ := h.of_releasing here
    have spares (value : Bytes) : g.releaseCall ≠ .set c.prefixKey value := by simp [Guard.releaseCall]
    have still := Backend.get?_store_perform s.backend s.now spares
    exact .created rfl lacking (still.trans stored) rfl engaged own answer
  | tick guard isDue rung => exact h.tick guard isDue
  | renew guard asking new => exact h.renew guard
  | told guard there => exact h.told guard there
  | outside other spares elsewhere => exact h.outside other spares elsewhere

theorem Sound.run (h : s.Sound c owner fresh initial) (lasts : 0 < c.leaseSeconds)
    (run : Run (Step c owner fresh) s s') : s'.Sound c owner fresh initial :=
  run.keeps (fun _ _ _ h step => h.step lasts step) h

theorem sound_start (notStatic : c.staticPrefix = none) {now : Nat} {b : Backend}
    (free : b.leases.owner? now c.lockResource = none) :
    (start c now b).Sound c owner fresh (b.store.get? c.prefixKey) := by
  have reading : Stage.start c = .reading := by rw [Stage.start, notStatic]
  refine .reading reading rfl free rfl ?_ (.inl rfl)
  rw [start, reading]
  rfl

/-! ## It comes to an end -/

/-- The answer to a call leads to a later stage. -/
theorem Sound.rank_lt (h : s.Sound c owner fresh initial) {call : Call} {answer : call.Answer}
    (there : s.answer? = some ⟨call, answer⟩) (m : Stage.Moment) :
    (s.stage.answered c m call (.ok answer)).rank < s.stage.rank := by
  cases h with
  | reading here stored free unguarded calls answer =>
    rw [here]
    obtain none | told := answer
    · cases none.symm.trans there
    cases told.symm.trans there
    simp only [Stage.answered, Stage.afterRead]
    split <;> simp [Stage.rank]
  | asking here wanted lacking stored unguarded engaged none inTime answer =>
    rw [here]
    obtain ⟨unanswered, -⟩ | ⟨granted, -⟩ := answer
    · cases unanswered.symm.trans there
    cases granted.symm.trans there
    simp [Stage.answered, Acquisition.attempt, Stage.afterAttempt, Acquisition.judge, Stage.rank]
  | rereading here lacking stored leased engaged none answer =>
    rw [here]
    obtain unanswered | told := answer
    · cases unanswered.symm.trans there
    cases told.symm.trans there
    simp only [Stage.answered, Stage.afterReread, lacking]
    split <;> simp [Stage.rank]
  | writing here lacking leased engaged own answer =>
    rw [here]
    obtain unanswered | ⟨told, -⟩ := answer
    · cases unanswered.symm.trans there
    cases told.symm.trans there
    simp [Stage.answered, Stage.afterWrite, Stage.rank]
  | releasing here lacking stored guarded engaged own answer => cases answer.symm.trans there
  | adopted here found stored unguarded calls answer => cases answer.symm.trans there
  | created here lacking stored unguarded engaged own answer => cases answer.symm.trans there

/-- A call under way can be answered, once it has taken effect. -/
theorem Sound.hears (h : s.Sound c owner fresh initial) {a : (call : Call) × call.Answer} (there : s.answer? = some a) :
    ∃ s', Run (Step c owner fresh) s s' ∧ s'.stage.rank < s.stage.rank :=
  ⟨_, .single (.hear there rfl), h.rank_lt there _⟩

/-- A stage with a call leads to a later one. -/
theorem Sound.advances (h : s.Sound c owner fresh initial) {call : Call} (wants : s.stage.want c = .answer call) :
    ∃ s', Run (Step c owner fresh) s s' ∧ s'.stage.rank < s.stage.rank := by
  cases there : s.answer? with
  | some a => exact h.hears there
  | none =>
    obtain ⟨s', run, later⟩ := (h.effect wants there).hears rfl
    exact ⟨s', (Run.single (.effect wants there)).trans run, later⟩

/-- A lease can be given up at once. -/
theorem Sound.concludes (h : s.Sound c owner fresh initial) {o : Except Failure String}
    (here : s.stage = .releasing o) : ∃ s' o', Run (Step c owner fresh) s s' ∧ s'.stage = .finished o' := by
  obtain ⟨-, -, -, ⟨g, guard⟩, -⟩ := h.of_releasing here
  cases released : g.released with
  | true => exact ⟨_, _, .single (.finish here guard released), rfl⟩
  | false =>
    have first : Run (Step c owner fresh) s _ := .single (.release here guard released)
    have last : Run (Step c owner fresh) s _ := first.tail (.finish here rfl rfl)
    exact ⟨_, _, last, rfl⟩

/-- How the allocation has ended: it found a prefix in what was stored and made no call but the reading, or it found
none and has written the new one. -/
theorem Sound.ended (h : s.Sound c owner fresh initial) {o : Except Failure String} (here : s.stage = .finished o) :
    (∃ v, StoredPrefix.usableIn? c.refreshBefore initial = some v ∧ o = .ok v ∧ s.stored c = initial ∧
        s.calls = [.get c.prefixKey]) ∨
      StoredPrefix.usableIn? c.refreshBefore initial = none ∧ o = .ok fresh.value ∧
        s.stored c = some fresh.encode ∧ s.writes = [.set c.prefixKey fresh.encode] ∧
        s.calls ≠ [.get c.prefixKey] := by
  cases h with
  | adopted there found stored unguarded calls answer =>
    cases here.symm.trans there
    exact .inl ⟨_, found, rfl, stored, calls⟩
  | created there lacking stored unguarded engaged own answer =>
    cases here.symm.trans there
    obtain ⟨call, more, calls⟩ := engaged
    refine .inr ⟨lacking, rfl, stored, own, ?_⟩
    intro only
    rw [calls] at only
    cases only
  | _ there => cases here.symm.trans there

end Alone

namespace Alone

end Alone
end CertWatch
