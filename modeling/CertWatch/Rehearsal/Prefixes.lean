import CertWatch.Rehearsal.Leases

/-!
# Prefixes in a rehearsal

An allocation goes from stage to stage, each with one call or one pause. It can be given up at any
point at which it waits: then the lease it holds is given up too, and the next one begins anew.
-/

namespace CertWatch.Act
set_option autoImplicit false

variable {ρ : Type} [Inhabited ρ]

/-- The time of day of all rehearsals. -/
def today : Timestamp := ⟨63934444800, 123456789⟩

/-- The guard of an allocation under way. -/
def guardOfAllocation (id : Nat) : Act ρ (Option Nat) :=
  Flow.get fun w => w.allocationGuards.get? id

/-- What an allocation has at hand now. -/
def moment (id : Nat) (c : NamespaceConfig) : Act ρ Stage.Moment := do
  let held ← match ← guardOfAllocation id with
    | some g => holds g
    | none => pure false
  return ⟨← Flow.now, held, ← freshHex 16, c.freshPrefix (← freshHex 12) today⟩

/-- Releases the guard of an allocation. -/
def releaseAllocation (id : Nat) : Act ρ (Except Failure Unit) := do
  match ← guardOfAllocation id with
  | none => return .ok ()
  | some g =>
    let answer ← release g
    Flow.edit fun w => { w with allocationGuards := w.allocationGuards.erase id }
    return answer

/-- Waits for what an allocation wants at a stage. -/
def stage (id : Nat) (c : NamespaceConfig) (s : Stage) : Act ρ (Stage ⊕ Except Failure String) := do
  match s.want c with
  | .answer asked =>
    let answer ← call asked
    let m ← moment id c
    let next := s.answered c m asked answer
    if let some g := s.grant? m.now next then
      let g ← hold g
      Flow.edit fun w => { w with allocationGuards := w.allocationGuards.insert id g }
    return .inl next
  | .instant due =>
    Flow.sleepUntil due
    return .inl (s.resumed (← Flow.now))
  | .release outcome =>
    let (next, notices) := Stage.afterRelease outcome (← releaseAllocation id)
    report notices
    return .inl next
  | .nothing outcome => return .inr outcome

/-- Keeps an allocator; the answer is its number. -/
def keepAllocator (a : Allocator) : Act ρ Nat := do
  let id ← Flow.update World.draw
  Flow.edit fun w => { w with allocators := w.allocators.insert id a }
  return id

/-- The prefix of an allocator. -/
def obtainPrefix (id : Nat) : Act ρ (Except Failure String) := do
  match ← Flow.get fun w => w.allocators.get? id with
  | none => return .error .cancelled
  | some a =>
    once (fun w => ((w.allocators.get? id).map Allocator.found).getD {})
      (fun f w =>
        { w with allocators := w.allocators.modify id fun e => { e with found := f e.found } })
      (Flow.iterate (stage id a.config) (.error .cancelled) patience (Stage.start a.config))

/-- Cleans up after a call for a prefix that was given up. -/
def forsakePrefix (id : Nat) : Act ρ Unit := do
  let me ← Flow.self
  match ← guardOfAllocation id with
  | some g => dropGuard g
  | none => pure ()
  Flow.edit fun w => { w with
    allocationGuards := w.allocationGuards.erase id
    allocators := w.allocators.modify id fun a => { a with found := a.found.leave me } }

end CertWatch.Act
