import CertWatch.DecryptLog
import CertWatch.Reader
import CertWatch.Service

/-!
# The world of a rehearsal

A rehearsal runs guards, allocators, readers, watches, loops and services against one backend in
memory on a virtual clock. Calls to the backend can be made to fail, to be refused or to take their
time. The world holds all of that: things that live on their own have numbers, and names say which
number a script of steps means.
-/

namespace CertWatch
set_option autoImplicit false

/-- Who is asked about a value that cannot be opened. -/
inductive Handler where
  /-- A log that reports each such value once in a while; there are no bytes to take instead. -/
  | limited (log : Nat)
  /-- Every such value is reported, and some bytes or none are taken instead. -/
  | fallback (bytes : Option Bytes)
  deriving DecidableEq, Repr

/-- What happens to a call instead of reaching the backend. -/
inductive Mishap where
  | fails (failure : Failure)
  /-- A request for a lease is refused. -/
  | refuses
  deriving DecidableEq, Repr

/-- A mishap for the calls of a kind. -/
structure Fault where
  mishap : Mishap
  /-- What the call has to be about; anything if absent. -/
  subject : Option String := none
  /-- How many calls are left to be hit; all if absent. -/
  times : Option Nat := none
  deriving DecidableEq, Repr

/-- Something that reads values, with the handler it asks. -/
structure Handled (α : Type) where
  item : α
  handler : Handler

/-- Changes what reads values. -/
def Handled.modify {α : Type} (f : α → α) (h : Handled α) : Handled α := { h with item := f h.item }

/-- A call of a scripted step: how long it takes and how it ends. -/
structure ScriptCall where
  length : Nat
  ending : StepEnd

/-- When the calls of a scripted step began and ended, the last one first. -/
structure ScriptRuns where
  count : Nat := 0
  started : List Nat := []
  finished : List Nat := []
  deriving DecidableEq, Repr

namespace ScriptRuns

/-- Notes that a call begins. -/
def noteStart (r : ScriptRuns) (now : Nat) : ScriptRuns :=
  { r with count := r.count + 1, started := now :: r.started }

/-- Notes that a call ends. -/
def noteEnd (r : ScriptRuns) (now : Nat) : ScriptRuns := { r with finished := now :: r.finished }

end ScriptRuns

/-- A service at work, by the numbers of its parts: it has no loops until it is started. -/
structure Service where
  config : Config
  scope : Scope
  records : Nat
  bundles : Nat
  log : Nat
  loops : List Nat := []

/-- Everything there is in a rehearsal. -/
structure World where
  /-- The host name of the machine, if it has one. -/
  hostname : Option String := none
  backend : Backend := {}
  faults : List (Method × Fault) := []
  delays : List (Method × Nat) := []
  /-- What listings answer instead of the keys of the store. -/
  listing : Option (List String) := none
  /-- The calls made, by kind, the last one first. -/
  calls : List Method := []
  /-- The lines written to the log. -/
  journal : List String := []
  /-- How many fresh numbers were drawn. -/
  drawn : Nat := 0
  guards : Table Nat Guard := .empty
  guardNames : Table String Nat := .empty
  acquisitions : Table String Nat := .empty
  /-- What the jobs that acquire leases came to. -/
  acquired : Table Nat (Except Failure Nat) := .empty
  allocators : Table Nat Allocator := .empty
  /-- The guards of allocations under way, by allocator. -/
  allocationGuards : Table Nat Nat := .empty
  allocatorNames : Table String Nat := .empty
  logs : Table Nat DecryptLog := .empty
  logNames : Table String Nat := .empty
  readers : Table Nat (Handled Reader) := .empty
  readerNames : Table String Nat := .empty
  watchers : Table Nat (Handled Watcher) := .empty
  watcherNames : Table String Nat := .empty
  loops : Table Nat PollLoop := .empty
  loopNames : Table String Nat := .empty
  scripts : Table Nat ScriptRuns := .empty
  scriptNames : Table String Nat := .empty
  services : Table String Service := .empty
  /-- The watchers whose service is gone, by number. -/
  unserved : List Nat := []

namespace World

/-- Writes a line to the log. -/
def say (w : World) (line : String) : World := { w with journal := w.journal ++ [line] }

/-- Writes notices to the log. -/
def report (w : World) (notices : List Notice) : World :=
  { w with journal := w.journal ++ notices.map Notice.line }

/-- Draws a fresh number. -/
def draw (w : World) : World × Nat := ({ w with drawn := w.drawn + 1 }, w.drawn)

/-- How long calls of a kind take. -/
def delay (w : World) (m : Method) : Nat := ((w.delays.find? fun d => d.1 = m).map Prod.snd).getD 0

/-- Sets how long calls of a kind take. -/
def setDelay (w : World) (m : Method) (length : Nat) : World :=
  { w with delays := (m, length) :: w.delays.filter fun d => d.1 ≠ m }

/-- Takes the fault of a kind of calls away. -/
def clearFault (w : World) (m : Method) : World :=
  { w with faults := w.faults.filter fun f => f.1 ≠ m }

/-- Sets the fault of a kind of calls. -/
def setFault (w : World) (m : Method) (f : Fault) : World :=
  { w.clearFault m with faults := (m, f) :: (w.clearFault m).faults }

/-- The mishap that hits a call, if any does; a fault that has hit often enough is gone. -/
def mishap (w : World) (c : Call) : World × Option Mishap :=
  match w.faults.find? fun f => f.1 = c.method with
  | none => (w, none)
  | some (m, f) =>
    if f.subject.all (· == c.subject) then
      match f.times with
      | none => (w, some f.mishap)
      | some n =>
        (if n ≤ 1 then w.clearFault m else w.setFault m { f with times := some (n - 1) },
          some f.mishap)
    else (w, none)

/-- Lets a call reach the backend, or the listing that stands for its keys. -/
def reach (w : World) (now : Nat) (c : Call) : World × Except Failure c.Answer :=
  match c, w.listing with
  | .list _, some keys => (w, .ok keys)
  | c, _ =>
    let (backend, answer) := w.backend.perform now c
    ({ w with backend := backend }, .ok answer)

/-- Refuses a request for a lease; other calls reach the backend. -/
def refuse (w : World) (now : Nat) : (c : Call) → World × Except Failure c.Answer
  | .tryAcquire .. => (w, .ok false)
  | .renew .. => (w, .ok false)
  | c => w.reach now c

/-- Answers a call. -/
def answer (w : World) (now : Nat) (c : Call) : World × Except Failure c.Answer :=
  match w.mishap c with
  | (w, none) => w.reach now c
  | (w, some (.fails f)) => (w, .error f)
  | (w, some .refuses) => w.refuse now c

end World
end CertWatch
