import CertWatch.Rehearsal.Watchers

/-!
# Poll loops in a rehearsal

The number of a loop is the number of its job. A step is a poll of a watcher or a call of a script,
which may also panic.
-/

namespace CertWatch.Act
set_option autoImplicit false

variable {ρ : Type} [Inhabited ρ]

/-- Changes a loop. -/
def editLoop (id : Nat) (f : PollLoop → PollLoop) : Act ρ Unit :=
  Flow.edit fun w => { w with loops := w.loops.modify id f }

/-- Lets a loop go on by one step or one pause. -/
def goOn (id : Nat) (step : Act ρ StepEnd) : Act ρ (Unit ⊕ Unit) := do
  match ← Flow.get fun w => w.loops.get? id with
  | none => return .inr ()
  | some l =>
    match l.phase with
    | .ended | .died => return .inr ()
    | .fresh =>
      let now ← Flow.now
      editLoop id fun l => l.resume now
      return .inl ()
    | .waiting t =>
      Flow.waitUntilDue (some t.due) fun w => (w.loops.get? id).all PollLoop.mustEnd
      let now ← Flow.now
      editLoop id fun l => l.resume now
      return .inl ()
    | .stepping _ =>
      match ← step with
      | .panic =>
        editLoop id PollLoop.panic
        return .inr ()
      | .result r =>
        report (l.notices r)
        let now ← Flow.now
        editLoop id fun l => l.finishStep now
        return .inl ()

/-- Starts a loop; the answer is its number. -/
def startLoop (name : String) (period : Nat) (step : Act ρ StepEnd) : Act ρ Nat := do
  let id ← Flow.fork do
    let id ← Flow.self
    Flow.iterate (fun _ => goOn id step) () patience ()
    return default
  Flow.edit fun w => { w with loops := w.loops.insert id { name := name, period := period } }
  return id

/-- A step that polls with a watcher. -/
def pollStep (watcher : Nat) : Act ρ StepEnd := do
  return .result ((← poll watcher).map fun _ => ())

/-- Starts a loop that polls with a watcher. -/
def startPolling (watcher : Nat) (period : Nat) : Act ρ Nat := do
  let name ← Flow.get fun w => ((w.watchers.get? watcher).map fun e => e.item.memory.name).getD ""
  startLoop name period (pollStep watcher)

/-- The call of a script with a number; the last one is repeated. -/
def scriptCall (calls : List ScriptCall) (n : Nat) : ScriptCall :=
  (calls[n]?).getD (calls.getLast?.getD ⟨0, .result (.ok ())⟩)

/-- A step that goes through a script and notes when its calls begin and end. -/
def scriptStep (script : Nat) (calls : List ScriptCall) : Act ρ StepEnd := do
  let begun ← Flow.now
  let n ← Flow.update fun w =>
    let runs := (w.scripts.get? script).getD {}
    ({ w with scripts := w.scripts.insert script (runs.noteStart begun) }, runs.count)
  let c := scriptCall calls n
  Flow.sleep c.length
  let ended ← Flow.now
  Flow.edit fun w => { w with scripts := w.scripts.modify script fun runs => runs.noteEnd ended }
  return c.ending

/-- Starts a loop over a script with a name. -/
def startScript (name : String) (calls : List ScriptCall) (period : Nat) : Act ρ Nat := do
  let script ← Flow.update World.draw
  Flow.edit fun w => { w with
    scripts := w.scripts.insert script {}
    scriptNames := w.scriptNames.insert name script }
  startLoop name period (scriptStep script calls)

/-- When the calls of the script with a name began and ended, the last one first. -/
def runsNamed (name : String) : Act ρ (Option ScriptRuns) :=
  Flow.get fun w => (w.scriptNames.get? name).bind w.scripts.get?

/-- Keeps the handle of a loop under a name; one that was kept there is dropped. -/
def keepLoop (name : String) (id : Nat) : Act ρ Unit := do
  let earlier ← Flow.get fun w => w.loopNames.get? name
  Flow.edit fun w => { w with loopNames := w.loopNames.insert name id }
  match earlier with
  | some old => editLoop old PollLoop.orphan
  | none => return ()

/-- The loop under a name. -/
def loopNamed (name : String) : Act ρ (Option (Nat × PollLoop)) := Flow.get fun w => do
  let id ← w.loopNames.get? name
  return (id, ← w.loops.get? id)

/-- Takes the handle of a loop away from its name. -/
def takeLoop (name : String) : Act ρ (Option Nat) := Flow.update fun w =>
  ({ w with loopNames := w.loopNames.erase name }, w.loopNames.get? name)

/-- Tells loops to stop. -/
def stopAll (ids : List Nat) : Act ρ Unit := ids.forM fun id => editLoop id PollLoop.stop

/-- Takes the handles of loops away. -/
def orphanAll (ids : List Nat) : Act ρ Unit := ids.forM fun id => editLoop id PollLoop.orphan

/-- Some loops. -/
def loopsOf (ids : List Nat) (w : World) : List PollLoop := ids.filterMap w.loops.get?

/-- Stops loops and waits for them in order. -/
def join (ids : List Nat) : Act ρ (Except Failure Unit) := do
  stopAll ids
  Flow.waitUntil fun w => (PollLoop.joined (loopsOf ids w)).isSome
  Flow.get fun w => (PollLoop.joined (loopsOf ids w)).getD (.ok ())

end CertWatch.Act
