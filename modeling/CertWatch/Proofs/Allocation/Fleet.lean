import CertWatch.Proofs.Lease.Exclusion
import CertWatch.Proofs.Line
import CertWatch.Proofs.Prefix

/-!
# A fleet of allocators

Any number of processes share a store and a lease service. Each of them has an allocator for the same
settings and calls for its prefix as often as it likes. Every allocation goes through its stages beside
a tenant, who asks for the lease in its name. A call to the store takes effect in one instant between
its beginning and its answer, or never; its answer may be a failure although it took effect. Leases
lapse as they will, and nobody but the fleet writes the prefix.
-/

namespace CertWatch
set_option autoImplicit false

/-- Whether the guard of a tenant holds its lease. -/
def Tenancy.held (t : Tenancy) (n : Nat) : Bool := (t.tenants n).guard?.any fun g => g.isHeld t.now

/-- An allocation begins to ask for the lease when its stage says so. -/
def Tenancy.enter (t : Tenancy) (n : Nat) : Stage → Tenancy
  | .asking a _ => t.put n (.asking a t.now none)
  | _ => t

/-- Whether an event lets a call of somebody who does not wait for it write a key. -/
def Tenancy.Event.Writes (key : String) : Tenancy.Event → Prop
  | .landed c => ∃ value, c = .set key value
  | .outside c => ∃ value, c = .set key value
  | _ => False

/-- Whether an event is none of an allocation's own doing and does not write a key. -/
def Tenancy.Event.Quiet (key : String) (e : Tenancy.Event) : Prop :=
  ¬ e.Writes key ∧ match e with
    | .asked _ | .judged .. | .resumed _ | .calledOff _ | .released _ | .dropped _ | .finished .. => False
    | _ => True

/-- The calls for a prefix that a fleet can make, with what each is given: its process, the owner in
whose name it asks for the lease, and the token and the time of the prefix that it would write. -/
structure Roster where
  config : NamespaceConfig
  home : Nat → Nat
  owner : Nat → String
  token : Nat → String
  created : Nat → Timestamp
  notStatic : config.staticPrefix = none
  owner_injective : Function.Injective owner
  token_injective : Function.Injective token
  regular : ∀ n, (created n).IsRegular
  recent : ∀ n, ∀ cutoff ∈ config.refreshBefore, (created n).before cutoff = false

namespace Roster

variable (ro : Roster)

/-- The prefix that a call would write. -/
def fresh (n : Nat) : StoredPrefix := ro.config.freshPrefix (ro.token n) (ro.created n)

/-- The prefix in stored bytes, if the fleet can use one. -/
def usable? (bytes : Option Bytes) : Option String :=
  StoredPrefix.usableIn? ro.config.refreshBefore bytes

/-- The stored prefix, if the fleet can use it. -/
def stored? (t : Tenancy) : Option String :=
  ro.usable? (t.backend.store.get? ro.config.prefixKey)

/-- Whether a call's owner has the live lease that allows to create a prefix. -/
def Owns (t : Tenancy) (n : Nat) : Prop := t.owner? ro.config.lockResource = some (ro.owner n)

/-- What an allocation has at hand. -/
def moment (t : Tenancy) (n : Nat) : Stage.Moment := ⟨t.now, t.held n, ro.owner n, ro.fresh n⟩

theorem usable?_fresh (n : Nat) : ro.usable? (some (ro.fresh n).encode) = some (ro.fresh n).value :=
  NamespaceConfig.usableIn?_freshPrefix (ro.regular n) (ro.recent n)

theorem fresh_value_injective {m n : Nat} (same : (ro.fresh m).value = (ro.fresh n).value) : m = n :=
  ro.token_injective (NamespaceConfig.freshPrefix_value_injective same)

end Roster

/-- How far a call for a prefix has come. -/
inductive Phase where
  | idle
  /-- In the line of its process. -/
  | waiting
  | working (stage : Stage)
  | returned (outcome : Except Failure String)

/-- What an allocation came to. -/
def Stage.outcome? : Stage → Option (Except Failure String)
  | releasing o => some o
  | finished o => some o
  | _ => none

/-- Whether a stage is that of a write. -/
def Stage.isWriting : Stage → Bool
  | writing _ => true
  | _ => false

/-- What a call came to. -/
def Phase.outcome? : Phase → Option (Except Failure String)
  | working stage => stage.outcome?
  | returned o => some o
  | _ => none

/-- A call for a prefix. -/
structure Caller where
  phase : Phase := .idle
  /-- What the store has answered to the reading under way. -/
  seen? : Option (Option Bytes) := none
  /-- Whether it has come to write a prefix of its own. -/
  minted : Bool := false
  /-- Whether that write has taken effect. -/
  landed : Bool := false

/-- What a call has to do with: its tenant, the cell of its process and itself. -/
structure Desk where
  tenancy : Tenancy
  cell : Once String
  caller : Caller

/-- What a call does, or what happens to it. -/
inductive Turn where
  | called
  | reused
  | begun
  | read
  | heard (answer : Except Failure (Option Bytes))
  | judged (answer : Except Failure Bool)
  | resumed
  | wrote
  | acknowledged (answer : Except Failure Unit)
  | released
  | finished (answer : Except Failure Unit)
  | settled

/-- The moves of a call. -/
inductive Move (ro : Roster) (n : Nat) : Desk → Turn → Desk → Prop where
  | call {d : Desk} (new : d.caller.phase = .idle) (empty : d.cell.value = none) :
      Move ro n d .called { d with cell := d.cell.enter n, caller := { phase := .waiting } }
  /-- The process has found its prefix before. -/
  | reuse {d : Desk} {v : String} (here : d.caller.phase = .idle ∨ d.caller.phase = .waiting)
      (found : d.cell.value = some v) :
      Move ro n d .reused { d with caller := { d.caller with phase := .returned (.ok v) } }
  | begin {d : Desk} (here : d.caller.phase = .waiting) (empty : d.cell.value = none)
      (turn : d.cell.admits n = true) :
      Move ro n d .begun
        { d with caller := { d.caller with phase := .working (Stage.start ro.config) } }
  /-- A reading takes effect. -/
  | read {d : Desk} {stage : Stage} (here : d.caller.phase = .working stage)
      (wants : stage.want ro.config = .answer (.get ro.config.prefixKey)) (new : d.caller.seen? = none) :
      Move ro n d .read
        { d with caller :=
            { d.caller with seen? := some (d.tenancy.answer (.get ro.config.prefixKey)) } }
  | hear {d : Desk} {stage next : Stage} (here : d.caller.phase = .working stage)
      (wants : stage.want ro.config = .answer (.get ro.config.prefixKey))
      (r : Except Failure (Option Bytes)) (told : Told d.caller.seen? r)
      (after : next =
        stage.answered ro.config (ro.moment d.tenancy n) (.get ro.config.prefixKey) r) :
      Move ro n d (.heard r)
        { d with
          tenancy := d.tenancy.enter n next
          caller :=
            { d.caller with
              phase := .working next, seen? := none, minted := next.isWriting || d.caller.minted } }
  | judge {d : Desk} {a : Acquisition} {since : Nat} {done? : Option Bool}
      (here : d.caller.phase = .working (.asking a since))
      (there : d.tenancy.tenants n = .asking a since done?)
      (r : Except Failure Bool) (told : Told done? r) :
      Move ro n d (.judged r)
        { d with
          tenancy := d.tenancy.put n (.judged a since d.tenancy.now r)
          caller :=
            { d.caller with
              phase := .working
                (Stage.answered ro.config (ro.moment d.tenancy n) (.asking a since) a.attempt r) } }
  | resume {d : Desk} {a : Acquisition} {next : Nat} (here : d.caller.phase = .working (.pausing a next))
      (there : d.tenancy.tenants n = .pausing a next)
      (due : Clock.reached d.tenancy.now next = true) :
      Move ro n d .resumed
        { d with
          tenancy := d.tenancy.put n (.asking a d.tenancy.now none)
          caller :=
            { d.caller with phase := .working (Stage.resumed d.tenancy.now (.pausing a next)) } }
  /-- A write takes effect. -/
  | write {d : Desk} {f : StoredPrefix} (here : d.caller.phase = .working (.writing f))
      (new : d.caller.landed = false) :
      Move ro n d .wrote
        { d with
          tenancy := d.tenancy.perform (.set ro.config.prefixKey f.encode)
          caller := { d.caller with landed := true } }
  | acknowledge {d : Desk} {f : StoredPrefix} (here : d.caller.phase = .working (.writing f))
      (r : Except Failure Unit) (told : r = .ok () → d.caller.landed = true) :
      Move ro n d (.acknowledged r)
        { d with caller :=
            { d.caller with
              phase := .working (Stage.answered ro.config (ro.moment d.tenancy n) (.writing f)
                (.set ro.config.prefixKey f.encode) r) } }
  | release {d : Desk} {o : Except Failure String} {g : Guard} {done? : Option Bool}
      (here : d.caller.phase = .working (.releasing o)) (there : d.tenancy.tenants n = .holding g done?) :
      Move ro n d .released { d with tenancy := d.tenancy.put n (.leaving g.release none) }
  | finish {d : Desk} {o : Except Failure String} {g : Guard} {done? : Option Unit}
      (here : d.caller.phase = .working (.releasing o)) (there : d.tenancy.tenants n = .leaving g done?)
      (r : Except Failure Unit) (told : Told done? r) :
      Move ro n d (.finished r)
        { d with
          tenancy := d.tenancy.put n .gone
          caller := { d.caller with phase := .working (Stage.afterRelease o r).1 } }
  | settle {d : Desk} {o : Except Failure String} (here : d.caller.phase = .working (.finished o)) :
      Move ro n d .settled
        { d with cell := d.cell.settle n o, caller := { d.caller with phase := .returned o } }

/-- The store, the lease service and all calls of a fleet. -/
structure Fleet where
  tenancy : Tenancy
  cells : Nat → Once String := fun _ => {}
  callers : Nat → Caller := fun _ => {}

namespace Fleet

/-- What a call has to do with. -/
def desk (ro : Roster) (s : Fleet) (n : Nat) : Desk := ⟨s.tenancy, s.cells (ro.home n), s.callers n⟩

/-- The fleet after a move of a call. -/
def place (ro : Roster) (s : Fleet) (n : Nat) (d : Desk) : Fleet where
  tenancy := d.tenancy
  cells := Function.update s.cells (ro.home n) d.cell
  callers := Function.update s.callers n d.caller

/-- What happens to a fleet: something around it, or a move of a call. -/
inductive Event where
  | around
  | moved (n : Nat) (a : Turn)

/-- The steps of a fleet, in any order. -/
inductive Step (ro : Roster) : Fleet → Event → Fleet → Prop where
  /-- Time passes, the service deals with a lease, a guard is renewed, or somebody else makes a call. -/
  | around {s : Fleet} {e : Tenancy.Event} {t : Tenancy} (quiet : e.Quiet ro.config.prefixKey)
      (step : Tenancy.Step ro.owner s.tenancy e t) : Step ro s .around { s with tenancy := t }
  | move {s : Fleet} (n : Nat) {a : Turn} {d : Desk} (move : Move ro n (s.desk ro n) a d) :
      Step ro s (.moved n a) (s.place ro n d)

/-- Nobody has called as yet. -/
def start (now : Nat) (b : Backend) : Fleet := { tenancy := .start now b }

end Fleet
end CertWatch
