import CertWatch.Proofs.Bus.Chronicle
import CertWatch.Proofs.Bus.Registry

/-!
# The moments of a bus

Whatever happens on a bus, a publish included, is made of small things that happen one after the other
(`Runs.later`). So what each of them keeps holds at every moment, also in the middle of a publish.
-/

namespace CertWatch.Bus
set_option autoImplicit false

variable {ε : Type}

/-! ## What the operations of a bus leave alone -/

section Bus

variable (b : Bus ε) (id : Nat)

theorem dispose_eq : b.dispose id =
    { b with disposed := (b.dispose id).disposed, listeners := (b.dispose id).listeners } := by
  rw [dispose]
  split <;> rfl

/-- Two buses agree on everything but names, buffers, the trace and the log. -/
structure Alike (b b' : Bus ε) : Prop where
  nextId : b'.nextId = b.nextId
  listeners : b'.listeners = b.listeners
  disposed : b'.disposed = b.disposed
  alive : b'.alive = b.alive

theorem alike_poll : Alike b (b.poll id).1 := by
  rw [poll]
  split <;> exact ⟨rfl, rfl, rfl, rfl⟩

theorem slots_poll : (b.poll id).1.slots = b.slots := by
  rw [poll]
  split <;> rfl

@[simp] theorem alive_dispose : (b.dispose id).alive = b.alive := by rw [dispose_eq]

@[simp] theorem alive_disposeSlot (slot : String) : (b.disposeSlot slot).alive = b.alive := by
  rw [disposeSlot]
  split
  · exact alive_dispose b _
  · rfl

@[simp] theorem alive_dropStream : (b.dropStream id).alive = b.alive := alive_dispose b id

end Bus

namespace Chronicle

variable {c c' : Chronicle ε}

/-! ## The smallest things that happen -/

/-- Something small happens, in a publish or between two. -/
inductive Happens : Chronicle ε → Chronicle ε → Prop where
  | act {c c' : Chronicle ε} (act : Act c c') : Happens c c'
  | registerAs {c : Chronicle ε} (slot : String) (l : Listener ε) (alive : c.bus.alive = true) :
      Happens c (c.registerAs slot l)
  | disposeSlot {c : Chronicle ε} (slot : String) : Happens c (c.disposeSlot slot)
  | write {c : Chronicle ε} (trace log : List String) : Happens c (c.write trace log)
  | enqueue {c : Chronicle ε} (s : Nat) (event : ε) : Happens c (c.enqueue s event)
  | begin {c : Chronicle ε} (event : ε) : Happens c (c.begin event)
  | tell {c : Chronicle ε} (number id : Nat) (event : ε) : Happens c (c.tell number id event)
  | close {c : Chronicle ε} : Happens c c.close

/-- One moment comes after another. -/
def Later : Chronicle ε → Chronicle ε → Prop := Relation.ReflTransGen Happens

/-- A moment in the life of a bus, in a publish or between two. -/
def Moment (c : Chronicle ε) : Prop := Later {} c

theorem Act.alive_eq (h : Act c c') : c'.bus.alive = c.bus.alive := by
  cases h with
  | register l alive => rfl
  | dispose known => exact alive_dispose _ _
  | hold slots streams known => rfl
  | subscribe alive => rfl
  | dropStream there => exact alive_dropStream _ _
  | poll there => exact (alike_poll _ _).alive

/-- A publish is made of the small things that happen in it, and none of them drops the bus. -/
theorem Runs.later {t : Task ε} (h : Runs c t c') (alive : c.bus.alive = true) :
    Later c c' ∧ c'.bus.alive = true := by
  induction h with
  | nil => exact ⟨.refl, alive⟩
  | next first more ihFirst ihMore =>
    obtain ⟨first, alive⟩ := ihFirst alive
    obtain ⟨more, alive⟩ := ihMore alive
    exact ⟨first.trans more, alive⟩
  | stop first ih => exact ih alive
  | meanwhile act more ih =>
    obtain ⟨more, alive⟩ := ih (act.alive_eq.trans alive)
    exact ⟨more.head (.act act), alive⟩
  | note line => exact ⟨.single (.write _ _), alive⟩
  | look ends ih => exact ih alive
  | dispose slot => exact ⟨.single (.disposeSlot slot), (alive_disposeSlot _ _).trans alive⟩
  | register slot l => exact ⟨.single (.registerAs slot l alive), alive⟩
  | nested report ends ih =>
    obtain ⟨ends, alive⟩ := ih alive
    exact ⟨ends.tail (.write _ _), alive⟩
  | panic message => exact ⟨.refl, alive⟩
  | enqueue s event => exact ⟨.single (.enqueue s event), alive⟩
  | publish ends ih =>
    obtain ⟨ends, alive⟩ := ih alive
    exact ⟨ends.head (.begin _), alive⟩
  | done => exact ⟨.refl, alive⟩
  | returned called more ihCalled ihMore =>
    obtain ⟨called, alive⟩ := ihCalled alive
    obtain ⟨more, alive⟩ := ihMore alive
    exact ⟨(called.head (.tell _ _ _)).trans more, alive⟩
  | panicked called more ihCalled ihMore =>
    obtain ⟨called, alive⟩ := ihCalled alive
    obtain ⟨more, alive⟩ := ihMore alive
    exact ⟨(called.head (.tell _ _ _)).trans (more.head (.write _ _)), alive⟩

theorem Step.later (h : Step c c') : Later c c' := by
  cases h with
  | act act => exact .single (.act act)
  | publish alive runs => exact (runs.later alive).1
  | close alive => exact .single .close

theorem Leads.later (h : Leads c c') : Later c c' := by
  induction h with
  | refl => exact .refl
  | tail _ step ih => exact ih.trans step.later

/-- What was will have been. -/
theorem Happens.history (h : Happens c c') : ∃ more, c'.history = c.history ++ more := by
  cases h with
  | act act =>
    cases act with
    | hold slots streams known => exact ⟨[], (List.append_nil _).symm⟩
    | _ => exact ⟨_, rfl⟩
  | write trace log => exact ⟨[], (List.append_nil _).symm⟩
  | enqueue s event => exact ⟨[], (List.append_nil _).symm⟩
  | _ => exact ⟨_, rfl⟩

theorem Later.history (h : Later c c') : ∃ more, c'.history = c.history ++ more := by
  induction h with
  | refl => exact ⟨[], (List.append_nil _).symm⟩
  | tail _ happens ih =>
    obtain ⟨more, eq⟩ := ih
    obtain ⟨more', eq'⟩ := happens.history
    exact ⟨more ++ more', by rw [eq', eq, List.append_assoc]⟩

theorem Later.mem (later : Later c c') {e : Event ε} (among : e ∈ c.history) : e ∈ c'.history := by
  obtain ⟨more, history⟩ := later.history
  rw [history]
  exact List.mem_append_left _ among

end Chronicle
end CertWatch.Bus
