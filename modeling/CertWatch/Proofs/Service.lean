import CertWatch.Proofs.Config
import CertWatch.Proofs.Job
import CertWatch.Proofs.Table
import CertWatch.Rehearsal.Services

/-!
# Making a service

The settings of a service are judged before anything else is done. Once they are found acceptable, those who
are made of them have nothing to object to, and all that can go wrong is the allocation of the prefix: a call
fails as calls may, or the lease is not granted or does not last.
-/

namespace CertWatch
set_option autoImplicit false

/-- Whether a failure is one that calls are answered with: what is called cannot be reached, or it is shutting
down. -/
def Failure.OfTransport : Failure → Prop
  | storeUnavailable _ | cancelled => True
  | _ => False

/-- Whether an allocation may fail with a failure. -/
def Failure.OfAllocation : Failure → Prop
  | lockAcquisition _ => True
  | f => f.OfTransport

theorem Failure.OfTransport.ofAllocation {f : Failure} (h : f.OfTransport) : f.OfAllocation := by
  cases f with
  | lockAcquisition detail => trivial
  | _ => exact h

/-- The failure of a result, if it is one, is one of an allocation. -/
def Apt {α : Type} (r : Except Failure α) : Prop := ∀ f, r = .error f → f.OfAllocation

theorem apt_ok {α : Type} (a : α) : Apt (.ok a : Except Failure α) := nofun

theorem apt_error {α : Type} {f : Failure} (h : f.OfAllocation) : Apt (.error f : Except Failure α) := by
  rintro _ ⟨⟩
  exact h

namespace World

variable {w : World}

/-- The faults of a world let calls fail as calls may. -/
def FailsAptly (w : World) : Prop := ∀ e ∈ w.faults, ∀ f, e.2.mishap = .fails f → f.OfTransport

theorem FailsAptly.clearFault (h : w.FailsAptly) (m : Method) : (w.clearFault m).FailsAptly :=
  fun e among => h e (List.mem_filter.1 among).1

theorem FailsAptly.setFault (h : w.FailsAptly) (m : Method) {fault : Fault}
    (apt : ∀ f, fault.mishap = .fails f → f.OfTransport) : (w.setFault m fault).FailsAptly := by
  intro e among
  rcases List.mem_cons.1 among with rfl | other
  · exact apt
  · exact h.clearFault m e other

theorem FailsAptly.mishap (h : w.FailsAptly) (c : Call) :
    (w.mishap c).1.FailsAptly ∧ ∀ f, (w.mishap c).2 = some (.fails f) → f.OfTransport := by
  unfold World.mishap
  split
  · exact ⟨h, nofun⟩
  · rename_i m fault found
    have apt := h _ (List.mem_of_find?_eq_some found)
    split
    · split
      · exact ⟨h, fun f same => apt f (Option.some.inj same)⟩
      · refine ⟨?_, fun f same => apt f (Option.some.inj same)⟩
        split
        · exact h.clearFault m
        · exact h.setFault m apt
    · exact ⟨h, nofun⟩

theorem FailsAptly.reach (h : w.FailsAptly) (now : Nat) (c : Call) :
    (w.reach now c).1.FailsAptly ∧ ∀ f, (w.reach now c).2 = .error f → f.OfTransport := by
  cases c with
  | list pattern =>
    cases listing : w.listing with
    | none =>
      simp only [World.reach, listing]
      exact ⟨h, nofun⟩
    | some keys =>
      simp only [World.reach, listing]
      exact ⟨h, nofun⟩
  | _ => exact ⟨h, nofun⟩

theorem FailsAptly.refuse (h : w.FailsAptly) (now : Nat) (c : Call) :
    (w.refuse now c).1.FailsAptly ∧ ∀ f, (w.refuse now c).2 = .error f → f.OfTransport := by
  cases c with
  | tryAcquire resource owner length => exact ⟨h, nofun⟩
  | renew resource owner length => exact ⟨h, nofun⟩
  | get key => exact h.reach now _
  | set key value => exact h.reach now _
  | list pattern => exact h.reach now _
  | release resource owner => exact h.reach now _

/-- A call leaves such a world as it is in this, and fails as calls may. -/
theorem FailsAptly.answer (h : w.FailsAptly) (now : Nat) (c : Call) :
    (w.answer now c).1.FailsAptly ∧ ∀ f, (w.answer now c).2 = .error f → f.OfTransport := by
  obtain ⟨there, fails⟩ := h.mishap c
  unfold World.answer
  generalize w.mishap c = met at there fails
  split
  · exact there.reach now c
  · refine ⟨there, ?_⟩
    rintro _ ⟨⟩
    exact fails _ rfl
  · exact there.refuse now c

end World

namespace Stage

/-- What an allocation has come to, if it has come to something, is a prefix or a failure of an allocation. -/
def Apt : Stage → Prop
  | releasing outcome => CertWatch.Apt outcome
  | finished outcome => CertWatch.Apt outcome
  | _ => True

variable {c : NamespaceConfig}

theorem apt_start : (start c).Apt := by
  unfold start
  split
  · exact apt_ok _
  · trivial

theorem apt_afterRead {owner : String} {now : Nat} {r : Except Failure (Option Bytes)} (apt : CertWatch.Apt r) :
    (afterRead c owner now r).Apt := by
  cases r with
  | error f => exact apt_error (apt f rfl)
  | ok stored =>
    simp only [afterRead]
    split
    · exact apt_ok _
    · trivial

theorem apt_afterAttempt {a : Acquisition} {now : Nat} (r : Except Failure Bool) : (afterAttempt a now r).Apt := by
  unfold afterAttempt Acquisition.judge
  cases r with
  | error f => exact apt_error trivial
  | ok granted =>
    cases granted with
    | true => trivial
    | false =>
      by_cases pauses : a.mayPause now = true
      · simp only [pauses]
        trivial
      · simp only [pauses]
        exact apt_error trivial

theorem apt_afterReread {held : Bool} {fresh : StoredPrefix} {r : Except Failure (Option Bytes)}
    (apt : CertWatch.Apt r) : (afterReread c held fresh r).Apt := by
  cases r with
  | error f => exact apt_error (apt f rfl)
  | ok stored =>
    simp only [afterReread]
    split
    · exact apt_ok _
    · split
      · trivial
      · exact apt_error (f := Guard.lossOf c.lockResource) trivial

theorem apt_afterWrite {held : Bool} {fresh : StoredPrefix} {r : Except Failure Unit} (apt : CertWatch.Apt r) :
    (afterWrite c held fresh r).Apt := by
  cases r with
  | error f => exact apt_error (apt f rfl)
  | ok done =>
    cases held with
    | true => exact apt_ok _
    | false => exact apt_error (f := Guard.lossOf c.lockResource) trivial

/-- Whatever a call is answered with, an allocation does not fail in another way than allocations do. -/
theorem Apt.answered {s : Stage} (h : s.Apt) (m : Moment) {asked : Call} {r : Except Failure asked.Answer}
    (apt : CertWatch.Apt r) : (s.answered c m asked r).Apt := by
  cases s with
  | reading =>
    cases asked with
    | get key => exact apt_afterRead apt
    | _ => exact h
  | asking a since =>
    cases asked with
    | tryAcquire resource owner length => exact apt_afterAttempt r
    | _ => exact h
  | rereading =>
    cases asked with
    | get key => exact apt_afterReread apt
    | _ => exact h
  | writing fresh =>
    cases asked with
    | set key value => exact apt_afterWrite apt
    | _ => exact h
  | _ => exact h

theorem Apt.resumed {s : Stage} (h : s.Apt) (now : Nat) : (s.resumed now).Apt := by
  cases s with
  | pausing a next => trivial
  | _ => exact h

end Stage

namespace Act

open CertWatch.Flow World

variable {ρ : Type} {α : Type}

theorem keeps_call (c : Call) : Keeps FailsAptly CertWatch.Apt (call c : Act ρ _) := by
  refine .bind (keeps_edit fun _ good => good) fun _ _ => ?_
  refine .bind (keeps_see _) fun length _ => .bind (keeps_sleep length) fun _ _ => ?_
  refine .bind keeps_now fun now _ => keeps_update fun w good => ?_
  obtain ⟨there, fails⟩ := FailsAptly.answer good now c
  exact ⟨there, fun f failed => (fails f failed).ofAllocation⟩

theorem keeps_report (notices : List Notice) : Keeps FailsAptly (fun _ => True) (report notices : Act ρ Unit) :=
  keeps_edit fun _ good => good

theorem keeps_freshHex (bytes : Nat) : Keeps FailsAptly (fun _ => True) (freshHex bytes : Act ρ String) :=
  .bind (keeps_update (P := fun _ => True) fun _ good => ⟨good, trivial⟩) fun _ _ => keeps_pure trivial

theorem keeps_once {view : World → Once α} {change : (Once α → Once α) → World → World}
    {make : Act ρ (Except Failure α)} (changes : ∀ f w, w.FailsAptly → (change f w).FailsAptly)
    (makes : make.Keeps FailsAptly CertWatch.Apt) : (once view change make).Keeps FailsAptly CertWatch.Apt := by
  refine .bind (keeps_see _) fun cell _ => ?_
  split
  · exact keeps_pure (apt_ok _)
  refine .bind keeps_self fun me _ => .bind (keeps_edit (changes _)) fun _ _ => ?_
  refine .bind (keeps_waitUntil _) fun _ _ => .bind (keeps_see _) fun cell _ => ?_
  split
  · exact keeps_pure (apt_ok _)
  · exact .bind makes fun made apt => .bind (keeps_edit (changes _)) fun _ _ => keeps_pure apt

/-- One renewal of a lease. -/
theorem keeps_renewOnce (id : Nat) : Keeps FailsAptly (fun _ => True) (renewOnce id : Act ρ _) := by
  refine .bind (keeps_see _) fun g _ => ?_
  split
  · exact keeps_pure trivial
  split
  · exact keeps_pure trivial
  refine .bind (keeps_waitUntilDue _ _) fun _ _ => .bind (keeps_see _) fun still _ => ?_
  split
  · exact keeps_pure trivial
  refine .bind keeps_now fun asked _ => .bind (keeps_edit fun _ good => good) fun _ _ => ?_
  refine .bind (keeps_call _) fun answer _ => .bind keeps_now fun now _ => ?_
  refine .bind (keeps_update (P := fun _ => True) fun w good => ?_) fun notices _ => ?_
  · split
    · exact ⟨good, trivial⟩
    · exact ⟨good, trivial⟩
  · exact .bind (keeps_report notices) fun _ _ => keeps_pure trivial

theorem keeps_release (id : Nat) : Keeps FailsAptly CertWatch.Apt (release id : Act ρ _) := by
  refine .bind (keeps_see _) fun g _ => ?_
  split
  · exact keeps_pure (apt_ok ())
  refine .bind (keeps_abort id) fun _ _ => .bind (keeps_edit fun _ good => good) fun _ _ => ?_
  exact .bind (keeps_call _) fun answer apt => .bind (keeps_edit fun _ good => good) fun _ _ => keeps_pure apt

theorem keeps_moment (id : Nat) (c : NamespaceConfig) : Keeps FailsAptly (fun _ => True) (moment id c : Act ρ _) := by
  refine .bind (keeps_see _) fun g _ => ?_
  split
  · refine .bind (.bind keeps_now fun now _ => keeps_see _) fun held _ => ?_
    refine .bind keeps_now fun now _ => .bind (keeps_freshHex _) fun owner _ => ?_
    exact .bind (keeps_freshHex _) fun token _ => keeps_pure trivial
  · refine .bind (keeps_pure (P := fun _ => True) trivial) fun held _ => ?_
    refine .bind keeps_now fun now _ => .bind (keeps_freshHex _) fun owner _ => ?_
    exact .bind (keeps_freshHex _) fun token _ => keeps_pure trivial

theorem keeps_releaseAllocation (id : Nat) : Keeps FailsAptly CertWatch.Apt (releaseAllocation id : Act ρ _) := by
  refine .bind (keeps_see _) fun g _ => ?_
  split
  · exact keeps_pure (apt_ok ())
  · exact .bind (keeps_release _) fun answer apt => .bind (keeps_edit fun _ good => good) fun _ _ => keeps_pure apt

theorem keeps_keepAllocator (a : Allocator) : Keeps FailsAptly (fun _ => True) (keepAllocator a : Act ρ _) :=
  .bind (P := fun _ => True) (keeps_update fun _ good => ⟨good, trivial⟩) fun _ _ =>
    .bind (keeps_edit fun _ good => good) fun _ _ => keeps_pure trivial

theorem keeps_settleIn (name : String) (c : Config) (scope : Scope) (memory : Memory) :
    Keeps FailsAptly (fun _ => True) (settleIn name c scope memory : Act ρ _) := by
  refine .bind (P := fun _ => True) (keeps_update fun _ good => ⟨good, trivial⟩) fun _ _ => ?_
  refine .bind (P := fun _ => True) (keeps_update fun _ good => ⟨good, trivial⟩) fun _ _ => ?_
  exact .bind (P := fun _ => True) (keeps_update fun _ good => ⟨good, trivial⟩) fun _ _ => keeps_pure trivial

theorem keeps_orphanAll (ids : List Nat) : Keeps FailsAptly (fun _ => True) (orphanAll ids : Act ρ _) :=
  keeps_forM (f := fun id => editLoop id PollLoop.orphan) (fun _ => keeps_edit fun _ good => good) ids

theorem keeps_keepService (name : String) (s : Service) :
    Keeps FailsAptly (fun _ => True) (keepService name s : Act ρ _) :=
  .bind (keeps_see _) fun _ _ => .bind (keeps_edit fun _ good => good) fun _ _ => keeps_orphanAll _

/-- No call was made between two worlds, and nothing else happened to what is called. -/
def Uncalled (w w' : World) : Prop := w'.calls = w.calls ∧ w'.backend = w.backend

/-- An allocator in a world, since which no call was made. -/
def Kept (w : World) (id : Nat) (a : Allocator) (w' : World) : Prop :=
  w'.allocators.get? id = some a ∧ Uncalled w w'

variable {w : World}

theorem atOnce_keepAllocator (a : Allocator) :
    AtOnce (keepAllocator a : Act ρ _) (· = w) fun id => Kept w id a := by
  refine .bind (R := fun _ => Uncalled w) (atOnce_update ?_) fun id => ?_
  · rintro _ rfl
    exact ⟨rfl, rfl⟩
  refine .bind (R := fun _ => Kept w id a) (atOnce_edit ?_) fun _ => atOnce_pure fun _ there => there
  exact fun w' none => ⟨Table.get?_insert_self _ _ _, none⟩

theorem atOnce_settleIn (name : String) (c : Config) (scope : Scope) (memory : Memory) :
    AtOnce (settleIn name c scope memory : Act ρ _) (Uncalled w) fun s w' =>
      (s.config = c ∧ s.scope = scope) ∧ Uncalled w w' := by
  refine .bind (R := fun _ => Uncalled w) (atOnce_update fun w' there => there) fun _ => ?_
  refine .bind (R := fun _ => Uncalled w) (atOnce_update fun w' there => there) fun _ => ?_
  refine .bind (R := fun _ => Uncalled w) (atOnce_update fun w' there => there) fun _ => ?_
  exact atOnce_pure fun w' there => ⟨⟨rfl, rfl⟩, there⟩

theorem atOnce_keepService (name : String) (s : Service) :
    AtOnce (keepService name s : Act ρ _) (Uncalled w) fun _ => Uncalled w := by
  refine .bind (R := fun _ => Uncalled w) (atOnce_get fun w' there => there) fun _ => ?_
  refine .bind (R := fun _ => Uncalled w) (atOnce_edit fun w' there => there) fun _ => ?_
  exact atOnce_forM (f := fun id => editLoop id PollLoop.orphan) (fun _ => atOnce_edit fun w' there => there) _

variable [Inhabited ρ]

theorem keeps_renewals : Keeps FailsAptly (fun _ => True) (renewals : Act ρ ρ) := by
  refine .bind keeps_self fun id _ => .bind (P := fun _ => True) ?_ fun _ _ => keeps_pure trivial
  refine keeps_iterate (Q := fun _ => True) (fun _ _ => ?_) trivial _ trivial
  exact (keeps_renewOnce id).mono fun r _ => by cases r <;> trivial

theorem keeps_hold (g : Guard) : Keeps FailsAptly (fun _ => True) (hold g : Act ρ Nat) :=
  .bind (keeps_fork keeps_renewals) fun _ _ => .bind (keeps_edit fun _ good => good) fun _ _ => keeps_pure trivial

/-- One stage of an allocation. -/
theorem keeps_stage (id : Nat) (c : NamespaceConfig) {s : Stage} (apt : s.Apt) :
    Keeps FailsAptly (Sum.elim Stage.Apt CertWatch.Apt) (stage id c s : Act ρ _) := by
  unfold stage
  split
  · refine .bind (keeps_call _) fun answer answered => .bind (keeps_moment id c) fun m _ => ?_
    have next := apt.answered (c := c) m answered
    dsimp only
    split
    · exact .bind (keeps_hold _) fun g _ => .bind (keeps_edit fun _ good => good) fun _ _ => keeps_pure next
    · exact keeps_pure next
  · exact .bind (keeps_sleepUntil _) fun _ _ => .bind keeps_now fun now _ => keeps_pure (apt.resumed now)
  · rename_i outcome want
    have earlier : CertWatch.Apt outcome := by
      cases s with
      | releasing o =>
        cases want
        exact apt
      | _ => cases want
    refine .bind (keeps_releaseAllocation id) fun answer _ => ?_
    exact .bind (keeps_report _) fun _ _ => keeps_pure earlier
  · rename_i outcome want
    have earlier : CertWatch.Apt outcome := by
      cases s with
      | finished o =>
        cases want
        exact apt
      | _ => cases want
    exact keeps_pure earlier

/-- An allocation fails as allocations do. -/
theorem keeps_obtainPrefix (id : Nat) : Keeps FailsAptly CertWatch.Apt (obtainPrefix id : Act ρ _) := by
  refine .bind (keeps_see _) fun a _ => ?_
  split
  · exact keeps_pure (apt_error (f := .cancelled) trivial)
  · refine keeps_once (fun _ _ good => good) ?_
    exact keeps_iterate (fun s => keeps_stage id _) (apt_error (f := .cancelled) trivial) _ Stage.apt_start

/-- Acceptable settings have an allocator, a key or none, and a watch of bundles. So the making of a service
consists of an allocation, whose failure it passes on, and of what follows it. -/
theorem newService_eq {c : Config} (valid : c.validate = .ok ()) (name : String) :
    ∃ key, c.sealing.key = .ok key ∧ (newService name c : Act ρ _) = do
      match ← obtainPrefix (← keepAllocator { config := c.allocation }) with
      | .error f => return .error f
      | .ok found =>
        let s ← settleIn name c ⟨found, key⟩ (.bundles c.bundles {})
        keepService name s
        return .ok s := by
  obtain ⟨key, sealing, failed, watched⟩ := Config.watched_of_validate valid
  refine ⟨key, sealing, ?_⟩
  unfold newService
  rw [Config.allocator_of_validate valid]
  refine bind_congr fun id => bind_congr fun found => ?_
  cases found with
  | error f => rw [failed]
  | ok found => rw [watched]

theorem newService_of_invalid {c : Config} {f : Failure} (invalid : c.validate = .error f) (name : String) :
    (newService name c : Act ρ _) = pure (.error f) := by
  unfold newService
  rw [Config.allocator_of_error invalid]

/-- The making of a service from acceptable settings fails as allocations do. -/
theorem keeps_newService {c : Config} (valid : c.validate = .ok ()) (name : String) :
    Keeps FailsAptly CertWatch.Apt (newService name c : Act ρ _) := by
  obtain ⟨key, -, flow⟩ := newService_eq (ρ := ρ) valid name
  rw [flow]
  refine .bind (keeps_keepAllocator _) fun id _ => .bind (keeps_obtainPrefix id) fun found apt => ?_
  split
  · exact keeps_pure (apt_error (apt _ rfl))
  · refine .bind (keeps_settleIn _ _ _ _) fun s _ => .bind (keeps_keepService _ _) fun _ _ => ?_
    exact keeps_pure (apt_ok s)

/-- An allocation with a fixed prefix makes no call and does not wait. -/
theorem atOnce_obtainPrefix {c : NamespaceConfig} {p : String} (fixed : c.staticPrefix = some p) (id : Nat) :
    AtOnce (obtainPrefix id : Act ρ _) (Kept w id { config := c }) fun found w' =>
      found = .ok p ∧ Uncalled w w' := by
  refine .bind (R := fun a w' => a = some { config := c } ∧ Kept w id { config := c } w') (atOnce_get ?_) fun a => ?_
  · exact fun w' there => ⟨there.1, there⟩
  refine atOnce_of_fact ?_
  rintro rfl
  refine .bind (R := fun cell w' => cell = {} ∧ Kept w id { config := c } w') (atOnce_get ?_) fun cell => ?_
  · exact fun w' there => ⟨by simp [there.1], there⟩
  refine atOnce_of_fact ?_
  rintro rfl
  refine .bind (R := fun _ => Kept w id { config := c }) (atOnce_self fun _ _ there => there) fun me => ?_
  refine .bind (R := fun _ => Kept w id { config := c, found := .enter {} me }) (atOnce_edit ?_) fun _ => ?_
  · exact fun w' there => ⟨Table.get?_modify_self there.1 _, there.2⟩
  refine .bind (atOnce_waitUntil fun w' there => ?_) fun _ => ?_
  · simp [there.1, Once.enter, Once.admits, Line.enter, Line.holds]
  refine .bind (R := fun cell w' => cell = Once.enter {} me ∧ Uncalled w w') (atOnce_get ?_) fun cell => ?_
  · exact fun w' there => ⟨by simp [there.1], there.2⟩
  refine atOnce_of_fact ?_
  rintro rfl
  refine .bind (R := fun made w' => made = .ok p ∧ Uncalled w w') ?_ fun made => atOnce_of_fact ?_
  · rw [Stage.start, fixed]
    exact atOnce_pure fun w' there => ⟨rfl, there⟩
  · rintro rfl
    refine .bind (R := fun _ => Uncalled w) (atOnce_edit fun w' there => there) fun _ => ?_
    exact atOnce_pure fun w' there => ⟨rfl, there⟩

/-- From acceptable settings with a fixed prefix a service is made without a call or a wait. -/
theorem atOnce_newService {c : Config} {p : String} (valid : c.validate = .ok ())
    (fixed : c.allocation.staticPrefix = some p) (name : String) :
    AtOnce (newService name c : Act ρ _) (· = w) fun r w' =>
      (∃ s, r = .ok s ∧ s.config = c ∧ s.scope.name = p) ∧ Uncalled w w' := by
  obtain ⟨key, -, flow⟩ := newService_eq (ρ := ρ) valid name
  rw [flow]
  refine .bind (atOnce_keepAllocator _) fun id => .bind (atOnce_obtainPrefix fixed id) fun found => ?_
  refine atOnce_of_fact ?_
  rintro rfl
  refine .bind (atOnce_settleIn name c _ _) fun s => atOnce_of_fact ?_
  rintro ⟨config, scope⟩
  refine .bind (atOnce_keepService name s) fun _ => atOnce_pure fun w' there => ⟨⟨s, rfl, config, ?_⟩, there⟩
  rw [scope]

/-- **A service is made of acceptable settings only.** Other settings are refused for the reason for which they
are not acceptable, and nothing else is done. From acceptable ones a service is made by an allocation, whose
failure is passed on, and by what follows it, which cannot fail. Other jobs may change the store and the leases
whenever this one waits, so its calls may be answered with anything; as long as calls fail as calls may, the
failure is one of an allocation, and not one of validation. If the settings name a fixed prefix, a service in it
is made in the same turn and without a call. -/
theorem newService_gated (name : String) (c : Config) :
    (∀ f, c.validate = .error f →
      (∃ detail, f = .validation detail) ∧ (newService name c : Act ρ _) = pure (.error f)) ∧
    (c.validate = .ok () →
      (∃ key, c.sealing.key = .ok key ∧ (newService name c : Act ρ _) = do
        match ← obtainPrefix (← keepAllocator { config := c.allocation }) with
        | .error f => return .error f
        | .ok found =>
          let s ← settleIn name c ⟨found, key⟩ (.bundles c.bundles {})
          keepService name s
          return .ok s) ∧
      (∀ (s : Schedule World ρ) (tell : Except Failure Service → ρ), s.Keeps FailsAptly →
        ∀ r ∈ (s.perform (tell <$> newService name c)).2, ∃ outcome, r = tell outcome ∧
          ∀ f, outcome = .error f → f.OfAllocation ∧ ∀ detail, f ≠ .validation detail) ∧
      ∀ p, c.allocation.staticPrefix = some p → ∀ w, AtOnce (newService name c : Act ρ _) (· = w) fun r w' =>
        (∃ s, r = .ok s ∧ s.config = c ∧ s.scope.name = p) ∧ Uncalled w w') := by
  refine ⟨fun f invalid => ?_, fun valid => ⟨newService_eq valid name, fun s tell keeps r told => ?_, ?_⟩⟩
  · exact ⟨Config.validation_of_validate invalid, newService_of_invalid invalid name⟩
  · have job : (tell <$> newService name c : Act ρ _).Keeps FailsAptly fun r => ∃ outcome, r = tell outcome ∧
        CertWatch.Apt outcome :=
      .bind (keeps_newService valid name) fun outcome apt => keeps_pure ⟨outcome, rfl, apt⟩
    obtain ⟨outcome, rfl, apt⟩ := (keeps.lead job.job _).2 r told
    refine ⟨outcome, rfl, fun f failed => ⟨apt f failed, ?_⟩⟩
    rintro detail rfl
    exact apt _ failed
  · exact fun p fixed w => atOnce_newService valid fixed name

/-- A schedule on which nothing can be read from the store. -/
def outage : Schedule World (Option Failure) where
  state := { faults := [(.get, { mishap := .fails (.storeUnavailable "down") })] }

/-- The failure of an attempt to make a service, if it is one. -/
def failure? : Except Failure Service → Option Failure
  | .error f => some f
  | .ok _ => none

/-- A blank host and no lease: the host is reported and nothing is done. With a host the attempt fails with the
store, whose failure is no fault of the settings, and with a fixed prefix the host does not matter. -/
theorem newService_gated_of_outage :
    (newService "s" { allocation := { host := " ", leaseSeconds := 0 } } : Act (Option Failure) _) =
      pure (.error (.validation "Namespace host cannot be empty")) ∧
    (outage.perform (failure? <$> newService "s" { allocation := { host := "h" } })).2 =
      some (some (.storeUnavailable "down")) ∧
    (∃ outcome, some (.storeUnavailable "down") = failure? outcome ∧
      ∀ f, outcome = .error f → f.OfAllocation ∧ ∀ detail, f ≠ .validation detail) ∧
    AtOnce (newService "s" { allocation := { host := " ", staticPrefix := some "n/s" } } : Act (Option Failure) _)
      (· = outage.state) fun r w =>
        (∃ s, r = .ok s ∧ s.config.allocation.host = " " ∧ s.scope.name = "n/s") ∧ Uncalled outage.state w := by
  have refused := (newService_gated (ρ := Option Failure) "s"
    { allocation := { host := " ", leaseSeconds := 0 } }).1 _ rfl
  have failed : (outage.perform (failure? <$> newService "s" { allocation := { host := "h" } })).2 =
      some (some (.storeUnavailable "down")) := rfl
  have keeps : outage.Keeps FailsAptly := by
    refine ⟨?_, nofun, nofun⟩
    rintro _ (_ | ⟨_, ⟨⟩⟩) f ⟨⟩
    trivial
  have apt := ((newService_gated "s" { allocation := { host := "h" } }).2 (by decide)).2.1 outage failure? keeps
  have made := ((newService_gated (ρ := Option Failure) "s"
    { allocation := { host := " ", staticPrefix := some "n/s" } }).2 (by decide)).2.2 "n/s" rfl outage.state
  refine ⟨refused.2, failed, apt _ failed, made.mono ?_⟩
  rintro r w ⟨⟨s, rfl, config, scope⟩, uncalled⟩
  exact ⟨⟨s, rfl, by rw [config], scope⟩, uncalled⟩

end Act
end CertWatch
