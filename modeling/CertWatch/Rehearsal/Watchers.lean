import CertWatch.Rehearsal.Calls

/-!
# Watchers in a rehearsal

Watchers are kept with the handler they ask and with one listener that collects the changes.
-/

namespace CertWatch.Act
set_option autoImplicit false

variable {ρ : Type}

/-- Keeps a watcher under a name, with a listener that collects the changes; the answer is its
number. -/
def keepWatcher (name : String) (scope : Scope) (memory : Memory) (handler : Handler) : Act ρ Nat :=
  Flow.update fun w =>
    let (w, id) := w.draw
    let watcher : Watcher := { scope, memory, bus := ({} : Bus (Nat × Changes)).subscribeAs "" }
    ({ w with
      watchers := w.watchers.insert id ⟨watcher, handler⟩
      watcherNames := w.watcherNames.insert name id }, id)

/-- The watcher under a name. -/
def watcherNamed (name : String) : Act ρ (Option (Nat × Handled Watcher)) := Flow.get fun w => do
  let id ← w.watcherNames.get? name
  return (id, ← w.watchers.get? id)

/-- Changes a watcher. -/
def editWatcher (id : Nat) (f : Watcher → Watcher) : Act ρ Unit :=
  Flow.edit fun w => { w with watchers := w.watchers.modify id (.modify f) }

/-- Waits for the turn of a watcher. -/
def takeTurn (id : Nat) : Act ρ Unit := do
  let me ← Flow.self
  editWatcher id fun e => { e with turn := e.turn.enter me }
  Flow.waitUntil fun w => (w.watchers.get? id).all fun e => e.item.turn.holds me

/-- Gives the turn of a watcher back. -/
def passTurn (id : Nat) : Act ρ Unit := do
  let me ← Flow.self
  editWatcher id fun e => { e with turn := e.turn.leave me }

/-- Polls with a watcher; the answer is what changed, if anything did. -/
def poll (id : Nat) : Act ρ (Except Failure (Option Changes)) := do
  takeTurn id
  let answer ← match ← Flow.get fun w => w.watchers.get? id with
    | none => pure (.ok none)
    | some e => do
      let result ← carryOut e.handler e.item.plan
      let now ← Flow.now
      Flow.update fun w =>
        match w.watchers.get? id with
        | none => (w, .ok none)
        | some e =>
          let (watcher, answer) := e.item.conclude now result
          ({ w with watchers := w.watchers.insert id { e with item := watcher } }, answer)
  passTurn id
  return answer

/-- What a watcher remembers, once no poll is under way. -/
def memoryOf (id : Nat) : Act ρ (Option Memory) := do
  takeTurn id
  let memory ← Flow.get fun w => (w.watchers.get? id).map fun e => e.item.memory
  passTurn id
  return memory

/-- Takes the collected changes. -/
def collect (id : Nat) : Act ρ (List (Nat × Changes)) := Flow.update fun w =>
  match w.watchers.get? id with
  | none => (w, [])
  | some e =>
    let collected := e.item.bus.buffers.flatMap Prod.snd
    let emptied := e.modify fun e =>
      { e with bus := { e.bus with buffers := e.bus.buffers.map fun b => (b.1, []) } }
    ({ w with watchers := w.watchers.insert id emptied }, collected)

end CertWatch.Act
