import CertWatch.Rehearsal.World
import CertWatch.Schedule

/-!
# Calls in a rehearsal

A call is counted, takes the time set for its kind, and is then hit by a fault or reaches the
backend, in one instant. Plans are carried out call by call.
-/

namespace CertWatch
set_option autoImplicit false

/-- Part of a job in a rehearsal. -/
abbrev Act (ρ α : Type) := Flow World ρ α

namespace Act

variable {ρ α : Type}

/-- How often a loop may go round in a rehearsal. -/
def patience : Nat := 100000000

/-- The distance between texts that are drawn one after the other. It is odd, so drawing goes
through all texts of a length before it comes to one again, and it has no pattern, so what is drawn
is not what anyone writes down. -/
def stride : Nat := 0xF9596A12F967CE19066998156A776259

/-- A fresh lowercase hexadecimal text of some bytes. -/
def freshHex (bytes : Nat) : Act ρ String := do
  return Bytes.toHex (Bytes.bigEndian bytes (((← Flow.update World.draw) + 1) * stride))

/-- Writes notices to the log. -/
def report (notices : List Notice) : Act ρ Unit := Flow.edit fun w => w.report notices

/-- Makes a call. -/
def call (c : Call) : Act ρ (Except Failure c.Answer) := do
  Flow.edit fun w => { w with calls := c.method :: w.calls }
  Flow.sleep (← Flow.get fun w => w.delay c.method)
  let now ← Flow.now
  Flow.update fun w => w.answer now c

/-- Asks a handler for bytes to take instead of those of a key. -/
def consult (handler : Handler) (key : String) (failure : DecryptFailure) : Act ρ (Option Bytes) :=
  match handler with
  | .fallback bytes =>
    Flow.update fun w => (w.say s!"handler {key} {failure.cipher.length} {failure.reason}", bytes)
  | .limited id =>
    Flow.update fun w =>
      match w.logs.get? id with
      | none => (w, none)
      | some log =>
        let (log, isNew) := log.record 0 key failure.cipher
        let w := { w with logs := w.logs.insert id log }
        (if isNew then w.report [.warning (DecryptLog.line key failure)] else w, none)

/-- Carries out a plan. -/
def carryOut (handler : Handler) : Plan α → Act ρ (Except Failure α)
  | .done r => pure r
  | .call c next => do carryOut handler (next (← call c))
  | .consult key failure next => do carryOut handler (next (← consult handler key failure))

/-- Fills a cell once, or waits for whoever is filling it. -/
def once (view : World → Once α) (change : (Once α → Once α) → World → World)
    (make : Act ρ (Except Failure α)) : Act ρ (Except Failure α) := do
  match (← Flow.get view).value with
  | some a => return .ok a
  | none =>
    let me ← Flow.self
    Flow.edit (change fun c => c.enter me)
    Flow.waitUntil fun w => (view w).admits me
    match (← Flow.get view).value with
    | some a => return .ok a
    | none =>
      let made ← make
      Flow.edit (change fun c => c.settle me made)
      return made

/-- Starts jobs in order and waits for them in order. -/
def together [Inhabited ρ] (jobs : List (Act ρ ρ)) : Act ρ (List ρ) := do
  let ids ← jobs.mapM Flow.fork
  ids.mapM fun id => do return (← Flow.await id).getD default

end Act
end CertWatch
