import CertWatch.Job

/-!
# Schedules

A schedule carries out jobs one at a time on a virtual clock. A leading job is served first whenever
time has passed, then the others in the order in which they became ready. Time passes only when no
job can go on, and then jumps to the next instant for which a job waits.
-/

namespace CertWatch
set_option autoImplicit false

namespace Job

variable {σ ρ : Type}

/-- The instant a job waits for, if it does. -/
def due? : Job σ ρ → Option Nat
  | park due _ _ => due
  | limit due inner _ => some (match inner.due? with
    | some d => min d due
    | none => due)
  | _ => none

/-- Whether a job can go on. -/
def ready (now : Nat) (state : σ) (ended : Nat → Bool) : Job σ ρ → Bool
  | park due condition _ => condition state || due.any (Clock.reached now)
  | await id _ => ended id
  | limit due inner _ => Clock.reached now due || inner.ready now state ended
  | _ => true

end Job

/-- Jobs on a state. -/
structure Schedule (σ ρ : Type) where
  now : Nat := 0
  state : σ
  /-- The number of the next job; the leading job has the number zero. -/
  nextId : Nat := 1
  /-- The jobs that wait, in the order in which they began to. -/
  waiting : List (Nat × Job σ ρ) := []
  /-- The jobs that can go on, in the order in which they will. -/
  queue : List (Nat × Job σ ρ) := []
  /-- How the jobs that are over ended. -/
  outcomes : List (Nat × Option ρ) := []

namespace Schedule

variable {σ ρ : Type}

/-- How a job ended, if it is over. -/
def outcome? (s : Schedule σ ρ) (id : Nat) : Option (Option ρ) :=
  (s.outcomes.find? fun o => o.1 = id).map Prod.snd

/-- Whether a job is over. -/
def isOver (s : Schedule σ ρ) (id : Nat) : Bool := (s.outcome? id).isSome

/-- Queues the waiting jobs that can go on. -/
def wake (s : Schedule σ ρ) : Schedule σ ρ :=
  let canGoOn (e : Nat × Job σ ρ) := e.2.ready s.now s.state s.isOver
  { s with
    waiting := s.waiting.filter fun e => !canGoOn e
    queue := s.queue ++ s.waiting.filter canGoOn }

/-- Takes note of the end of a job. -/
def conclude (s : Schedule σ ρ) (id : Nat) (result : Option ρ) : Schedule σ ρ :=
  { s with outcomes := (id, result) :: s.outcomes }.wake

/-- Calls a job off, unless it is over. -/
def abort (s : Schedule σ ρ) (id : Nat) : Schedule σ ρ :=
  if s.isOver id then s
  else
    { s with
      waiting := s.waiting.filter fun e => e.1 ≠ id
      queue := s.queue.filter fun e => e.1 ≠ id }.conclude id none

/-- Lets a job go on until it waits or ends; the answer is what is left of it. -/
def advance (id : Nat) : Job σ ρ → Schedule σ ρ → Schedule σ ρ × Job σ ρ
  | .finish r, s => (s, .finish r)
  | .look next, s => advance id (next s.now id s.state) s
  | .become state next, s => advance id next { s with state := state }.wake
  | .park due condition next, s =>
    if condition s.state || due.any (Clock.reached s.now) then advance id next s
    else (s, .park due condition next)
  | .fork child next, s =>
    advance id (next s.nextId)
      { s with nextId := s.nextId + 1, queue := s.queue ++ [(s.nextId, child)] }
  | .await other next, s =>
    match s.outcome? other with
    | some r => advance id (next r) s
    | none => (s, .await other next)
  | .isOver other next, s => advance id (next (s.isOver other)) s
  | .abort other next, s => advance id next (s.abort other)
  | .limit due inner next, s =>
    match advance id inner s with
    | (s, .finish r) => advance id (next (some r)) s
    | (s, inner) =>
      if Clock.reached s.now due then advance id (next none) s else (s, .limit due inner next)

/-- Serves a job. -/
def serve (s : Schedule σ ρ) (id : Nat) (job : Job σ ρ) : Schedule σ ρ :=
  match advance id job s with
  | (s, .finish r) => s.conclude id (some r)
  | (s, rest) => { s with waiting := s.waiting ++ [(id, rest)] }.wake

/-- Serves the queue until it is empty. The fuel bounds how many jobs are served. -/
def settle : Nat → Schedule σ ρ → Schedule σ ρ
  | 0, s => s
  | fuel + 1, s =>
    match s.queue with
    | [] => s
    | (id, job) :: rest => settle fuel ({ s with queue := rest }.serve id job)

/-- The earliest instant at which a timer rings for a waiting job or for the leading one. -/
def nextRing? (s : Schedule σ ρ) (lead : Job σ ρ) : Option Nat :=
  ((lead :: s.waiting.map Prod.snd).filterMap fun j => j.due?.map Clock.ring).min?

/-- Carries out a leading job to its end, and everything that can be done by then. There is no
result if the leading job waits for something that never comes. The fuel bounds how often it is
served. -/
def lead : Nat → Schedule σ ρ → Job σ ρ → Schedule σ ρ × Option ρ
  | 0, s, _ => (s, none)
  | fuel + 1, s, job =>
    match advance 0 job s with
    | (s, .finish r) => (s.settle 1000000, some r)
    | (s, rest) =>
      let s := s.settle 1000000
      if rest.ready s.now s.state s.isOver then lead fuel s rest
      else match s.nextRing? rest with
        | some t => lead fuel { s with now := t }.wake rest
        | none => (s, none)

/-- Carries out a flow as the leading job. -/
def perform (s : Schedule σ ρ) (f : Flow σ ρ ρ) : Schedule σ ρ × Option ρ := lead 100000000 s f.job

end Schedule
end CertWatch
