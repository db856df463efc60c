import CertWatch.Rehearsal.Calls

/-!
# Readers in a rehearsal

Readers are kept with the handler they ask, and so are the logs that handlers may share.
-/

namespace CertWatch.Act
set_option autoImplicit false

variable {ρ : Type}

/-- Makes a log of failures to open values; the answer is its number. -/
def newLog (interval : Nat) : Act ρ Nat := Flow.update fun w =>
  let (w, id) := w.draw
  ({ w with logs := w.logs.insert id { interval := interval } }, id)

/-- A handler with a log of its own, as long as one that nobody chose. -/
def defaultHandler : Act ρ Handler := do return .limited (← newLog (10 * Clock.second))

/-- Keeps a reader under a name. -/
def keepReader (name : String) (r : Reader) (handler : Handler) : Act ρ Unit :=
  Flow.edit fun w =>
    let (w, id) := w.draw
    { w with
      readers := w.readers.insert id ⟨r, handler⟩
      readerNames := w.readerNames.insert name id }

/-- Changes a reader. -/
def editReader (id : Nat) (f : Reader → Reader) : Act ρ Unit :=
  Flow.edit fun w => { w with readers := w.readers.modify id (.modify f) }

/-- Whether something holds of a reader. -/
def ofReader (id : Nat) (f : Reader → Bool) (w : World) : Bool :=
  (w.readers.get? id).all fun h => f h.item

/-- Makes a part of a reader, or waits until somebody has. -/
def need (id : Nat) (r : Handled Reader) (p : Reader.Part) : Act ρ (Except Failure Unit) := do
  if ← Flow.get (ofReader id fun r => r.has p) then return .ok ()
  let me ← Flow.self
  editReader id fun r => r.enter me p
  Flow.waitUntil (ofReader id fun r => r.admits me p)
  if ← Flow.get (ofReader id fun r => r.has p) then return .ok ()
  match p with
  | .content =>
    let made ← carryOut r.handler r.item.plan
    editReader id fun r => r.settle me made
    return made.map fun _ => ()
  | p =>
    editReader id fun r => r.derive me p
    return .ok ()

/-- Makes parts of a reader in order, unless one fails. -/
def needAll (id : Nat) (r : Handled Reader) : List Reader.Part → Act ρ (Except Failure Unit)
  | [] => return .ok ()
  | p :: rest => do
    match ← need id r p with
    | .error f => return .error f
    | .ok () => needAll id r rest

/-- What a reader answers; there is no answer if there is no such reader. -/
def read (id : Nat) (r : Handled Reader) (field : Reader.Field) :
    Act ρ (Except Failure (Option Reader.Answer)) := do
  match ← needAll id r field.parts with
  | .error f => return .error f
  | .ok () => return .ok (← Flow.get fun w => (w.readers.get? id).bind fun h => h.item.answer? field)

/-- The reader under a name. -/
def readerNamed (name : String) : Act ρ (Option (Nat × Handled Reader)) := Flow.get fun w => do
  let id ← w.readerNames.get? name
  return (id, ← w.readers.get? id)

/-- The records of all keys of a scope, each with its own failure. -/
def readAll (scope : Scope) (handler : Handler) :
    Act ρ (Except Failure (List (Except Failure Record))) := do
  match ← carryOut handler scope.keys with
  | .error f => return .error f
  | .ok keys => return .ok (← keys.mapM fun key => carryOut handler (scope.record key))

end CertWatch.Act
