import CertWatch.Rehearsal.Calls

/-!
# Leases in a rehearsal

Every guard has a job that renews its lease, and the number of that job is the number of the guard.
A guard that is dropped gives its lease up in a job of its own.
-/

namespace CertWatch.Act
set_option autoImplicit false

variable {ρ : Type} [Inhabited ρ]

/-- Changes a guard. -/
def editGuard (id : Nat) (f : Guard → Guard) : Act ρ Unit :=
  Flow.edit fun w => { w with guards := w.guards.modify id f }

/-- Whether a guard will not renew its lease any more. -/
def isStill (id : Nat) (w : World) : Bool := ((w.guards.get? id).bind Guard.due?).isNone

/-- Waits for a tick and renews the lease; the answer is whether that was the last time. -/
def renewOnce (id : Nat) : Act ρ (Unit ⊕ Unit) := do
  match ← Flow.get fun w => w.guards.get? id with
  | none => return .inr ()
  | some g =>
    match g.due? with
    | none => return .inr ()
    | some due =>
      Flow.waitUntilDue (some due) (isStill id)
      if ← Flow.get (isStill id) then return .inr ()
      let asked ← Flow.now
      editGuard id fun g => g.tick asked
      let answer ← call g.renewCall
      let now ← Flow.now
      let notices ← Flow.update fun w =>
        match w.guards.get? id with
        | none => (w, [])
        | some g =>
          let (g, notices) := g.answered now answer
          ({ w with guards := w.guards.insert id g }, notices)
      report notices
      return .inl ()

/-- The job of a guard. -/
def renewals : Act ρ ρ := do
  let id ← Flow.self
  Flow.iterate (fun _ => renewOnce id) () patience ()
  return default

/-- Takes a granted lease over; the answer is the number of its guard. -/
def hold (g : Guard) : Act ρ Nat := do
  let id ← Flow.fork renewals
  Flow.edit fun w => { w with guards := w.guards.insert id g }
  return id

/-- Goes on with an acquisition by one attempt or one pause; the answer is the number of the guard. -/
def pursue (a : Acquisition) : Acquisition.Stand → Act ρ (Acquisition.Stand ⊕ Except Failure Nat)
  | .asking since => do
    let answer ← call a.attempt
    return .inl (a.answered since (← Flow.now) answer)
  | .pausing next => do
    Flow.sleepUntil next
    return .inl (.asking (← Flow.now))
  | .ended (.ok g) => return .inr (.ok (← hold g))
  | .ended (.error f) => return .inr (.error f)

/-- Acquires a lease; lengths are in milliseconds. The answer is the number of the guard. -/
def acquire (resource : String) (lease retry : Nat) (timeout : Option Nat) :
    Act ρ (Except Failure Nat) := do
  let now ← Flow.now
  let a := Acquisition.start resource (← freshHex 16) (lease * Clock.millisecond)
    (retry * Clock.millisecond) (timeout.map fun t => t * Clock.millisecond) now
  Flow.iterate (pursue a) (.error .cancelled) patience (.asking now)

/-- The job that acquires a lease under a name. -/
def acquisitionNamed (name : String) : Act ρ (Option Nat) :=
  Flow.get fun w => w.acquisitions.get? name

/-- Waits for the job that acquires a lease under a name; no outcome if it was called off. -/
def joinAcquisition (name : String) (id : Nat) : Act ρ (Option (Except Failure Nat)) := do
  let _ ← Flow.await id
  Flow.update fun w => ({ w with acquisitions := w.acquisitions.erase name }, w.acquired.get? id)

/-- Releases a guard. -/
def release (id : Nat) : Act ρ (Except Failure Unit) := do
  match ← Flow.get fun w => w.guards.get? id with
  | none => return .ok ()
  | some g =>
    Flow.abort id
    editGuard id Guard.release
    let answer ← call g.releaseCall
    Flow.edit fun w => { w with guards := w.guards.erase id }
    return answer

/-- Makes the call of a dropped guard. -/
def letGo (g : Guard) (c : Call) : Act ρ ρ := do
  match ← call c with
  | .ok _ => return default
  | .error f =>
    report [g.dropFailed f]
    return default

/-- Drops a guard: its lease is given up, unless it was released before. -/
def dropGuard (id : Nat) : Act ρ Unit := do
  match ← Flow.get fun w => w.guards.get? id with
  | none => return ()
  | some g =>
    Flow.abort id
    Flow.edit fun w => { w with guards := w.guards.erase id }
    match g.dropCall? with
    | none => return ()
    | some c =>
      let _ ← Flow.fork (letGo g c)

/-- Drops what an acquisition came to. -/
def dropOutcome : Option (Except Failure Nat) → Act ρ Unit
  | some (.ok id) => dropGuard id
  | _ => return ()

/-- Acquires a lease on behalf of a name. Nobody asks for it any more if another acquisition has got
the name meanwhile. -/
def acquireFor (name resource : String) (lease retry : Nat) (timeout : Option Nat) : Act ρ ρ := do
  let outcome ← acquire resource lease retry timeout
  let me ← Flow.self
  if (← Flow.get fun w => w.acquisitions.get? name) = some me then
    Flow.edit fun w => { w with acquired := w.acquired.insert me outcome }
  else dropOutcome (some outcome)
  return default

/-- Starts to acquire a lease in a job of its own, under a name. -/
def acquireBehind (name resource : String) (lease retry : Nat) (timeout : Option Nat) :
    Act ρ Unit := do
  let id ← Flow.fork (acquireFor name resource lease retry timeout)
  let earlier ← Flow.get fun w => (w.acquisitions.get? name).bind w.acquired.get?
  Flow.edit fun w => { w with acquisitions := w.acquisitions.insert name id }
  dropOutcome earlier

/-- Whether a guard holds its lease now. -/
def holds (id : Nat) : Act ρ Bool := do
  let now ← Flow.now
  Flow.get fun w => (w.guards.get? id).any fun g => g.isHeld now

/-- Keeps a guard under a name; one that was kept there is dropped. -/
def keepGuard (name : String) (id : Nat) : Act ρ Unit := do
  let earlier ← Flow.get fun w => w.guardNames.get? name
  Flow.edit fun w => { w with guardNames := w.guardNames.insert name id }
  match earlier with
  | some old => dropGuard old
  | none => return ()

/-- The guard under a name. -/
def guardNamed (name : String) : Act ρ (Option (Nat × Guard)) := Flow.get fun w => do
  let id ← w.guardNames.get? name
  return (id, ← w.guards.get? id)

/-- Takes the guard under a name away from it. -/
def takeGuard (name : String) : Act ρ (Option Nat) := Flow.update fun w =>
  ({ w with guardNames := w.guardNames.erase name }, w.guardNames.get? name)

/-- The name under which the guard of an owner is kept. -/
def guardOf (w : World) (owner : String) : Option String :=
  let holds (e : String × Nat) := (w.guards.get? e.2).any fun g => g.owner = owner
  (w.guardNames.entries.find? holds).map Prod.fst

/-- The lines for the guards that are still held when nothing can be called any more. -/
def orphans (w : World) : List String :=
  w.guardNames.values.filterMap fun id => (w.guards.get? id).map fun g => g.orphaned.line

end CertWatch.Act
