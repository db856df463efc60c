import CertWatch.Proofs.Lease.Tenancy

/-!
# What becomes of a guard

One holder who asks for a lease, has a guard, and gives it up in one of the ways there are: the guard is
released, dropped where tasks can run, or dropped where none can. Ending the renewal cancels the call that
it has under way. The guard alone says whether it asks for a renewal and which call is made when it is
dropped, so whether there is a renewal after the end, and whether a lease is given up twice or not at all,
is a matter of the guard and not of these steps.
-/

namespace CertWatch
set_option autoImplicit false

/-- How a guard comes to its end. -/
inductive Farewell where
  | released
  /-- Dropped where tasks can run. -/
  | dropped
  /-- Dropped where nothing can be called any more. -/
  | orphaned
  deriving DecidableEq

/-- What is noted of a holder: the calls that it begins, and what becomes of its guard. -/
inductive Noted where
  | asked (c : Call)
  | granted
  | parted (how : Farewell)
  /-- The call that gives the lease up has taken effect. -/
  | gaveUp
  deriving DecidableEq

namespace Noted

/-- The call that was begun. -/
def call? : Noted → Option Call
  | asked c => some c
  | _ => none

/-- The calls that were begun, in their order. -/
def calls (ds : List Noted) : List Call := ds.filterMap call?

/-- The calls among them that give up a lease. -/
def releases (ds : List Noted) : List Call := (calls ds).filter fun c => c.method = .release

@[simp] theorem calls_append (ds ds' : List Noted) : calls (ds ++ ds') = calls ds ++ calls ds' :=
  List.filterMap_append

@[simp] theorem releases_append (ds ds' : List Noted) : releases (ds ++ ds') = releases ds ++ releases ds' := by
  simp [releases]

@[simp] theorem releases_nil : releases [] = [] := rfl

/-- What is no call to give up a lease does not count. -/
theorem releases_eq_nil {ds : List Noted} (none : ∀ d ∈ ds, ∀ c, d = asked c → c.method ≠ .release) :
    releases ds = [] := by
  rw [releases, List.filter_eq_nil_iff]
  intro c mem
  obtain ⟨d, there, begun⟩ := List.mem_filterMap.1 mem
  cases d with
  | asked c' =>
    obtain rfl : c' = c := Option.some.inj begun
    simpa using none _ there c' rfl
  | _ => cases begun

end Noted

/-- How far a call that gives a lease up has come. -/
inductive Errand where
  /-- A task will make the call. -/
  | due (c : Call)
  /-- The call is under way, and has taken effect or not. -/
  | underWay (c : Call) (done? : Option Unit)
  | closed

/-- Where a guard is. -/
inductive Stand where
  /-- With its holder. -/
  | kept
  /-- It was released at an instant, and its holder waits for the answer. -/
  | releasing (since : Nat)
  /-- It is no more; it had come to its end at an instant. -/
  | gone (how : Farewell) (since : Nat)

/-- How and when the guard has come to its end. -/
def Stand.parted? : Stand → Option (Farewell × Nat)
  | kept => none
  | releasing since => some (.released, since)
  | gone how since => some (how, since)

/-- A guard, where it is, and what is done about it. -/
structure Custody where
  guard : Guard
  /-- What the service has done about the renewal under way. -/
  renewed? : Option Bool := none
  stand : Stand := .kept
  errands : List Errand := []

namespace Custody

/-- The guard is released. -/
def release (c : Custody) (now : Nat) : Custody where
  guard := c.guard.release
  stand := .releasing now
  errands := c.errands ++ [.underWay c.guard.releaseCall none]

/-- The guard is dropped: its renewal ends, and if tasks can run, one makes the call that is left. -/
def drop (c : Custody) (how : Farewell) (since : Nat) (tasks : Bool) : Custody where
  guard := c.guard.stop
  stand := .gone how since
  errands := c.errands ++ if tasks then c.guard.dropCall?.toList.map .due else []

/-- The steps of a guard, at an instant: what is noted, and what happens to the service. -/
inductive Step (now : Nat) : Backend × Custody → List Noted → Backend × Custody → Prop where
  /-- The guard asks for a renewal, wherever it is. -/
  | tick {b : Backend} {c : Custody} {due : Nat} (isDue : c.guard.due? = some due)
      (rung : Clock.reached now due = true) :
      Step now (b, c) [.asked c.guard.renewCall] (b, { c with guard := c.guard.tick now, renewed? := none })
  | renew {b : Backend} {c : Custody} {ticker : Ticker} {since : Nat}
      (asking : c.guard.renewal = .asking ticker since) (new : c.renewed? = none) :
      Step now (b, c) []
        ((b.perform now c.guard.renewCall).1, { c with renewed? := some (b.perform now c.guard.renewCall).2 })
  | hear {b : Backend} {c : Custody} {ticker : Ticker} {since : Nat}
      (asking : c.guard.renewal = .asking ticker since) (r : Except Failure Bool) (told : Told c.renewed? r) :
      Step now (b, c) [] (b, { c with guard := (c.guard.answered now r).1, renewed? := none })
  | release {b : Backend} {c : Custody} (here : c.stand = .kept) :
      Step now (b, c) [.parted .released, .asked c.guard.releaseCall] (b, c.release now)
  /-- The holder hears of the release, and the guard is dropped. -/
  | finish {b : Backend} {c : Custody} {since : Nat} {call : Call} {done? : Option Unit}
      (here : c.stand = .releasing since) (before after : List Errand) (there : c.errands = before ++ .underWay call done? :: after)
      (r : Except Failure Unit) (told : Told done? r) (tasks : Bool) :
      Step now (b, c) [] (b, ({ c with errands := before ++ Errand.closed :: after }).drop .released since tasks)
  /-- The holder does not wait for the release any longer, and the guard is dropped. -/
  | forsake {b : Backend} {c : Custody} {since : Nat} (here : c.stand = .releasing since) (tasks : Bool) :
      Step now (b, c) [] (b, c.drop .released since tasks)
  | drop {b : Backend} {c : Custody} (here : c.stand = .kept) :
      Step now (b, c) [.parted .dropped] (b, c.drop .dropped now true)
  | orphan {b : Backend} {c : Custody} (here : c.stand = .kept) :
      Step now (b, c) [.parted .orphaned] (b, c.drop .orphaned now false)
  /-- A task runs and makes its call. -/
  | begin {b : Backend} {c : Custody} {call : Call} (before after : List Errand)
      (there : c.errands = before ++ .due call :: after) :
      Step now (b, c) [.asked call] (b, { c with errands := before ++ .underWay call none :: after })
  | giveUp {b : Backend} {c : Custody} {call : Call} (before after : List Errand)
      (there : c.errands = before ++ .underWay call none :: after) :
      Step now (b, c) [.gaveUp]
        ((b.perform now call).1, { c with errands := before ++ .underWay call (some ()) :: after })
  /-- A task hears of its call. -/
  | answered {b : Backend} {c : Custody} {how : Farewell} {since : Nat} {call : Call} {done? : Option Unit}
      (here : c.stand = .gone how since) (before after : List Errand)
      (there : c.errands = before ++ .underWay call done? :: after) (r : Except Failure Unit)
      (told : Told done? r) : Step now (b, c) [] (b, { c with errands := before ++ Errand.closed :: after })

end Custody

/-- One who asks for a lease. -/
inductive Holder where
  | absent
  /-- An attempt began at an instant; `done?` says what the service has done about it. -/
  | asking (wanted : Acquisition) (since : Nat) (done? : Option Bool)
  | pausing (wanted : Acquisition) (next : Nat)
  | has (custody : Custody)
  | failed

namespace Holder

/-- What is left of an acquisition after the answer to an attempt. -/
def judged (a : Acquisition) (since now : Nat) (answer : Except Failure Bool) : Holder :=
  match a.judge now answer with
  | .granted => has { guard := a.guard since now }
  | .pause next => pausing a next
  | .failed _ => failed

/-- What is noted of the answer to an attempt. -/
def verdict (a : Acquisition) (now : Nat) (answer : Except Failure Bool) : List Noted :=
  match a.judge now answer with
  | .granted => [.granted]
  | _ => []

end Holder

/-- The service, a holder and what was noted of it. -/
structure Tenure where
  now : Nat
  backend : Backend
  holder : Holder := .absent
  past : List Noted := []

namespace Tenure

/-- Nothing was asked for. -/
def start (now : Nat) (b : Backend) : Tenure := { now, backend := b }

/-- An attempt begins. -/
def ask (s : Tenure) (a : Acquisition) : Tenure :=
  { s with holder := .asking a s.now none, past := s.past ++ [.asked a.attempt] }

/-- The answer to an attempt. -/
def judge (s : Tenure) (a : Acquisition) (since : Nat) (answer : Except Failure Bool) : Tenure :=
  { s with
    holder := .judged a since s.now answer
    past := s.past ++ Holder.verdict a s.now answer }

/-- Something about the guard is done. -/
def keep (s : Tenure) (notes : List Noted) (b : Backend) (c : Custody) : Tenure :=
  { s with backend := b, holder := .has c, past := s.past ++ notes }

/-- The steps of a holder who has an owner for itself, of the service and of whoever else uses it. Every step
goes with what is noted of it. -/
inductive Step (owner : String) : Tenure → List Noted → Tenure → Prop where
  | pass {s : Tenure} : Step owner s [] { s with now := s.now + 1 }
  | ask {s : Tenure} {a : Acquisition} (new : s.holder = .absent) (own : a.owner = owner) :
      Step owner s [.asked a.attempt] (s.ask a)
  | attempt {s : Tenure} {a : Acquisition} {since : Nat} (here : s.holder = .asking a since none) :
      Step owner s []
        { s with
          backend := (s.backend.perform s.now a.attempt).1
          holder := .asking a since (some (s.backend.perform s.now a.attempt).2) }
  | judge {s : Tenure} {a : Acquisition} {since : Nat} {done? : Option Bool}
      (here : s.holder = .asking a since done?) (r : Except Failure Bool) (told : Told done? r) :
      Step owner s (Holder.verdict a s.now r) (s.judge a since r)
  | resume {s : Tenure} {a : Acquisition} {next : Nat} (here : s.holder = .pausing a next)
      (due : Clock.reached s.now next = true) : Step owner s [.asked a.attempt] (s.ask a)
  | custody {s : Tenure} {c c' : Custody} {b : Backend} {notes : List Noted} (here : s.holder = .has c)
      (step : Custody.Step s.now (s.backend, c) notes (b, c')) : Step owner s notes (s.keep notes b c')
  /-- Somebody else makes a call. -/
  | outside {s : Tenure} {call : Call} (other : call.lessee? ≠ some owner) :
      Step owner s [] { s with backend := (s.backend.perform s.now call).1 }

end Tenure
end CertWatch
