import Mathlib.Logic.Relation
import CertWatch.Bus

/-!
# What becomes of a bus

A bus goes through small changes, one after the other, whoever makes them: its owner, who holds its
subscriptions and streams, or a listener in the middle of a publish. So the buses that can be reached
are described without publishing, and publishing leads from one of them to another
(`changes_of_publish`).
-/

namespace CertWatch.Bus
set_option autoImplicit false

variable {ε : Type} {b b' b'' : Bus ε}

/-- A change of a bus. -/
inductive Change : Bus ε → Bus ε → Prop where
  | register {b : Bus ε} (l : Listener ε) : Change b (b.register l).1
  | dispose {b : Bus ε} (id : Nat) : Change b (b.dispose id)
  | subscribe {b : Bus ε} : Change b b.subscribe.1
  | dropStream {b : Bus ε} (id : Nat) : Change b (b.dropStream id)
  | enqueue {b : Bus ε} (stream : Nat) (event : ε) : Change b (b.enqueue stream event)
  | poll {b : Bus ε} (id : Nat) : Change b (b.poll id).1
  | drop {b : Bus ε} : Change b b.drop
  /-- Subscriptions and streams are held under other names, or are let go of. -/
  | hold {b : Bus ε} (slots streams : Table String Nat) : Change b { b with slots, streams }
  | write {b : Bus ε} (trace log : List String) : Change b { b with trace, log }

/-- Any number of changes. -/
def Changes : Bus ε → Bus ε → Prop := Relation.ReflTransGen Change

/-- What can become of a new bus. -/
def Reachable (b : Bus ε) : Prop := Changes {} b

theorem Changes.refl (b : Bus ε) : Changes b b := Relation.ReflTransGen.refl

theorem Changes.trans (first : Changes b b') (second : Changes b' b'') : Changes b b'' :=
  Relation.ReflTransGen.trans first second

theorem Change.changes (h : Change b b') : Changes b b' := .single h

theorem changes_registerAs (b : Bus ε) (slot : String) (l : Listener ε) :
    Changes b (b.registerAs slot l) :=
  (Change.register l).changes.trans (Change.hold _ _).changes

theorem changes_disposeSlot (b : Bus ε) (slot : String) : Changes b (b.disposeSlot slot) := by
  rw [disposeSlot]
  split
  · exact (Change.dispose _).changes
  · exact .refl b

/-! ## Publishing is a number of changes -/

section Nested

variable {nested : Bus ε → ε → Option (Bus ε × Nat)}

mutual

theorem changes_of_perform (h : ∀ b event r, nested b event = some r → Changes b r.1) :
    ∀ (deeds : List (Deed ε)) (b b' : Bus ε) (o : Outcome),
      perform nested b deeds = some (b', o) → Changes b b'
  | [], b, b', o, ends => by
    rw [perform] at ends
    cases ends
    exact .refl b
  | deed :: rest, b, b', o, ends => by
    rw [perform] at ends
    rcases first : carryOut nested b deed with _ | ⟨b₁, _ | m⟩
    · simp [first] at ends
    · have here := changes_of_carryOut h deed b b₁ .returned first
      rw [first] at ends
      exact here.trans (changes_of_perform h rest b₁ b' o ends)
    · have here := changes_of_carryOut h deed b b₁ (.panicked m) first
      rw [first] at ends
      cases ends
      exact here

theorem changes_of_carryOut (h : ∀ b event r, nested b event = some r → Changes b r.1) :
    ∀ (deed : Deed ε) (b b' : Bus ε) (o : Outcome),
      carryOut nested b deed = some (b', o) → Changes b b'
  | .note line, b, b', o, ends => by
    rw [carryOut] at ends
    cases ends
    exact (Change.write _ _).changes
  | .look next, b, b', o, ends => by
    rw [carryOut] at ends
    exact changes_of_perform h (next b.sight) b b' o ends
  | .dispose slot, b, b', o, ends => by
    rw [carryOut] at ends
    cases ends
    exact changes_disposeSlot b slot
  | .register slot l, b, b', o, ends => by
    rw [carryOut] at ends
    cases ends
    exact changes_registerAs b slot l
  | .publish event report, b, b', o, ends => by
    rw [carryOut] at ends
    cases published : nested b event with
    | none => simp [published] at ends
    | some r =>
      rw [published] at ends
      cases ends
      exact (h b event r published).trans (Change.write _ _).changes
  | .panic message, b, b', o, ends => by
    rw [carryOut] at ends
    cases ends
    exact .refl b
  | .enqueue stream event, b, b', o, ends => by
    rw [carryOut] at ends
    cases ends
    exact (Change.enqueue stream event).changes

end

theorem changes_of_deliver (h : ∀ b event r, nested b event = some r → Changes b r.1) {event : ε}
    {n n' : Nat} (ls : List (Nat × Listener ε)) (ends : deliver nested event b ls n = some (b', n')) :
    Changes b b' := by
  induction ls generalizing b n with
  | nil =>
    rw [deliver] at ends
    cases ends
    exact .refl _
  | cons l rest ih =>
    rw [deliver] at ends
    rcases performed : perform nested b (l.2 event) with _ | ⟨b₁, o⟩
    · simp [performed] at ends
    · have here := changes_of_perform h _ b b₁ o performed
      rw [performed] at ends
      cases o with
      | returned => exact here.trans (ih ends)
      | panicked m => exact here.trans ((Change.write _ _).changes.trans (ih ends))

end Nested

theorem changes_of_publish (depth : Nat) (b : Bus ε) (event : ε) (r : Bus ε × Nat)
    (ends : publish depth b event = some r) : Changes b r.1 := by
  induction depth generalizing b event r with
  | zero => cases ends
  | succ depth ih => exact changes_of_deliver ih b.listeners ends

/-! ## The order of the listeners -/

/-- Listeners stand in the order of their registration, by identities that were given out. -/
structure Orderly (b : Bus ε) : Prop where
  ascending : (b.listeners.map Prod.fst).Pairwise (· < ·)
  known : ∀ l ∈ b.listeners, l.1 < b.nextId

/-- One bus comes after another: identities were only added, and every listener that is there now
was there before or has a new one. -/
structure Later (b b' : Bus ε) : Prop where
  nextId : b.nextId ≤ b'.nextId
  listeners : ∀ l ∈ b'.listeners, l ∈ b.listeners ∨ b.nextId ≤ l.1

theorem orderly_new : ({} : Bus ε).Orderly := ⟨List.Pairwise.nil, nofun⟩

/-- Some listeners are taken away. -/
theorem Orderly.of_sublist (h : b.Orderly) (fewer : b'.listeners.Sublist b.listeners)
    (same : b'.nextId = b.nextId) : b'.Orderly where
  ascending := h.ascending.sublist (fewer.map Prod.fst)
  known l among := same ▸ h.known l (fewer.subset among)

theorem later_of_sublist (fewer : b'.listeners.Sublist b.listeners) (same : b'.nextId = b.nextId) :
    Later b b' where
  nextId := Nat.le_of_eq same.symm
  listeners _ among := .inl (fewer.subset among)

/-- A listener is added behind the others. -/
theorem Orderly.of_append (h : b.Orderly) {l : Listener ε}
    (more : b'.listeners = b.listeners ++ [(b.nextId, l)]) (next : b'.nextId = b.nextId + 1) :
    b'.Orderly where
  ascending := by
    rw [more, List.map_append, List.pairwise_append]
    refine ⟨h.ascending, List.pairwise_singleton _ _, ?_⟩
    intro id among id' new
    obtain ⟨l', listed, rfl⟩ := List.mem_map.1 among
    obtain rfl : id' = b.nextId := by simpa using new
    exact h.known l' listed
  known l' among := by
    rw [more, List.mem_append, List.mem_singleton] at among
    rw [next]
    rcases among with listed | rfl
    · exact Nat.lt_succ_of_lt (h.known l' listed)
    · exact Nat.lt_succ_self _

theorem later_of_append {l : Listener ε} (more : b'.listeners = b.listeners ++ [(b.nextId, l)])
    (next : b'.nextId = b.nextId + 1) : Later b b' where
  nextId := next ▸ Nat.le_succ _
  listeners l' among := by
    rw [more, List.mem_append, List.mem_singleton] at among
    rcases among with listed | rfl
    · exact .inl listed
    · exact .inr (Nat.le_refl _)

theorem sublist_dispose (b : Bus ε) (id : Nat) : (b.dispose id).listeners.Sublist b.listeners := by
  rw [dispose]
  split
  · exact List.Sublist.refl _
  · exact List.filter_sublist

theorem nextId_dispose (b : Bus ε) (id : Nat) : (b.dispose id).nextId = b.nextId := by
  rw [dispose]
  split <;> rfl

theorem poll_listeners (b : Bus ε) (id : Nat) :
    (b.poll id).1.listeners = b.listeners ∧ (b.poll id).1.nextId = b.nextId := by
  rw [poll]
  split <;> exact ⟨rfl, rfl⟩

/-- A change adds a listener behind the others, or takes some away. -/
theorem Change.cases (h : Change b b') :
    (∃ l, b'.listeners = b.listeners ++ [(b.nextId, l)] ∧ b'.nextId = b.nextId + 1) ∨
      b'.listeners.Sublist b.listeners ∧ b'.nextId = b.nextId := by
  cases h with
  | register l => exact .inl ⟨l, rfl, rfl⟩
  | dispose id => exact .inr ⟨sublist_dispose b id, nextId_dispose b id⟩
  | subscribe => exact .inl ⟨_, rfl, rfl⟩
  | dropStream id => exact .inr ⟨sublist_dispose b id, nextId_dispose b id⟩
  | enqueue stream event => exact .inr ⟨List.Sublist.refl _, rfl⟩
  | poll id =>
    have same := poll_listeners b id
    exact .inr ⟨same.1 ▸ List.Sublist.refl _, same.2⟩
  | drop => exact .inr ⟨List.nil_sublist _, rfl⟩
  | hold slots streams => exact .inr ⟨List.Sublist.refl _, rfl⟩
  | write trace log => exact .inr ⟨List.Sublist.refl _, rfl⟩

theorem Change.orderly (h : Change b b') (orderly : b.Orderly) : b'.Orderly := by
  rcases h.cases with ⟨l, more, next⟩ | ⟨fewer, same⟩
  · exact orderly.of_append more next
  · exact orderly.of_sublist fewer same

theorem Change.later (h : Change b b') : Later b b' := by
  rcases h.cases with ⟨l, more, next⟩ | ⟨fewer, same⟩
  · exact later_of_append more next
  · exact later_of_sublist fewer same

theorem Later.trans (first : Later b b') (second : Later b' b'') : Later b b'' where
  nextId := Nat.le_trans first.nextId second.nextId
  listeners l among := by
    rcases second.listeners l among with listed | new
    · exact first.listeners l listed
    · exact .inr (Nat.le_trans first.nextId new)

theorem Changes.later (h : Changes b b') : Later b b' := by
  induction h with
  | refl => exact later_of_sublist (List.Sublist.refl _) rfl
  | tail _ change ih => exact ih.trans change.later

theorem Reachable.orderly (h : b.Reachable) : b.Orderly := by
  induction h with
  | refl => exact orderly_new
  | tail _ change ih => exact change.orderly ih

end CertWatch.Bus
