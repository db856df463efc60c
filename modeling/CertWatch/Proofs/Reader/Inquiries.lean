import Mathlib.Logic.Function.Basic
import CertWatch.Proofs.Line
import CertWatch.Proofs.Run
import CertWatch.Reader

/-!
# Inquiries of a reader

Any number of calls ask one reader for its fields at the same time. The store answers each get as it
likes and when it likes, the handler answers each consultation as it likes, and a call can be called
off wherever it waits. Nothing comes between the answer to a get, the consultation that it may need and
the filling of the cell.
-/

namespace CertWatch
set_option autoImplicit false

namespace Plan

/-- A question what to take instead of bytes that cannot be opened, and what was answered. -/
structure Consultation where
  key : String
  failure : DecryptFailure
  substitute : Option Bytes

/-- The plan ends without another call, after these consultations. -/
inductive Concludes {α : Type} : Plan α → List Consultation → Except Failure α → Prop where
  | done (r : Except Failure α) : Concludes (.done r) [] r
  | consult {key : String} {failure : DecryptFailure} {next : Option Bytes → Plan α}
      {asked : List Consultation} {r : Except Failure α} (bytes : Option Bytes)
      (rest : Concludes (next bytes) asked r) :
      Concludes (.consult key failure next) (⟨key, failure, bytes⟩ :: asked) r

variable {α : Type} {a : α} {asked : List Consultation} {r : Except Failure α}

theorem concludes_pure (h : (pure a : Plan α).Concludes asked r) : asked = [] ∧ r = .ok a := by
  cases h with
  | done => exact ⟨rfl, rfl⟩

theorem concludes_substitute {key : String} {failure : DecryptFailure} {f : Option Bytes → α}
    (h : Concludes (do return f (← substitute key failure)) asked r) :
    ∃ bytes, asked = [⟨key, failure, bytes⟩] ∧ r = .ok (f bytes) := by
  cases h with
  | consult bytes rest =>
    obtain ⟨rfl, rfl⟩ := concludes_pure rest
    exact ⟨bytes, rfl, rfl⟩

end Plan

open Plan (Consultation concludes_pure concludes_substitute)

/-- The bytes of an envelope, as they are found from stored bytes with these consultations: the stored
bytes themselves if they are not sealed or empty, what they hold if they can be opened, and otherwise
what the handler gives, or nothing. -/
def Scope.Opens (s : Scope) (key : String) (raw : Bytes) (asked : List Consultation)
    (payload : Bytes) : Prop :=
  match s.sealKey with
  | none => asked = [] ∧ payload = raw
  | some k =>
    if raw = [] then asked = [] ∧ payload = raw
    else match k.openSealed raw with
      | .ok plain => asked = [] ∧ payload = plain
      | .error failure =>
        ∃ substitute, asked = [⟨key, failure, substitute⟩] ∧ payload = substitute.getD []

/-- What a field of a key is if this was fetched. -/
def Fetched.answer (f : Fetched) (key : String) : Reader.Field → Reader.Answer
  | .value => .value f.envelope.value
  | .modified => .modified f.envelope.modified
  | .digest => .digest (Digest.ofFields [Utf8.encode key, f.envelope.value])
  | .record => .record ⟨key, f.raw, f.envelope.value, f.envelope.modified,
      Digest.ofFields [Utf8.encode key, f.envelope.value]⟩

namespace Reader

variable (r : Reader)

/-- What is left of the plan to fetch the key once the get was answered. -/
def received : Except Failure (Option Bytes) → Plan Fetched
  | .ok stored => do
    let raw := stored.getD []
    return ⟨raw, ← r.scope.unwrap r.key raw⟩
  | .error f => .done (.error f)

theorem plan_eq : r.plan = .call (.get r.key) r.received := by
  refine congrArg (Plan.call (.get r.key)) (funext fun answer => ?_)
  cases answer <;> rfl

variable {r}

theorem eq_received {next : Except Failure (Option Bytes) → Plan Fetched}
    (plan : r.plan = .call (.get r.key) next) : next = r.received := by
  rw [plan_eq] at plan
  cases plan
  rfl

/-- A failed get is a failure to fetch. Any other get fetches what it says. -/
theorem concludes_received {answer : Except Failure (Option Bytes)} {asked : List Consultation}
    {made : Except Failure Fetched} (h : (r.received answer).Concludes asked made) :
    match answer with
    | .error f => asked = [] ∧ made = .error f
    | .ok stored => ∃ payload, made = .ok ⟨stored.getD [], payload⟩ ∧
        r.scope.Opens r.key (stored.getD []) asked payload := by
  cases answer with
  | error f =>
    cases h with
    | done => exact ⟨rfl, rfl⟩
  | ok stored =>
    simp only [received, Scope.unwrap] at h
    simp only [Scope.Opens]
    cases sealKey : r.scope.sealKey with
    | none =>
      rw [sealKey] at h
      obtain ⟨rfl, rfl⟩ := concludes_pure h
      exact ⟨_, rfl, rfl, rfl⟩
    | some k =>
      rw [sealKey] at h
      by_cases empty : stored.getD [] = []
      · simp only [if_pos empty] at h ⊢
        obtain ⟨rfl, rfl⟩ := concludes_pure h
        exact ⟨_, rfl, rfl, rfl⟩
      · simp only [if_neg empty] at h ⊢
        cases opened : k.openSealed (stored.getD []) with
        | ok plain =>
          rw [opened] at h
          obtain ⟨rfl, rfl⟩ := concludes_pure h
          exact ⟨_, rfl, rfl, rfl⟩
        | error failure =>
          rw [opened] at h
          obtain ⟨substitute, rfl, rfl⟩ := concludes_substitute h
          exact ⟨_, rfl, substitute, rfl, rfl⟩

end Reader

/-- What a call does. -/
inductive Inquiry.Standing where
  /-- It is about to see whether the next part is there. -/
  | ready
  /-- It has joined those who want the next part. -/
  | waiting
  /-- It has made a get. -/
  | fetching
  deriving DecidableEq

/-- A call that asks a reader for a field. -/
structure Inquiry where
  field : Reader.Field
  /-- The parts of the answer that it has not found or made, in order. -/
  todo : List Reader.Part
  standing : Inquiry.Standing := .ready

/-- The reader after a call was called off. -/
def Inquiry.leave (i : Inquiry) (id : Nat) (r : Reader) : Reader :=
  match i.standing, i.todo with
  | .ready, _ => r
  | _, [] => r
  | _, p :: _ => r.leave id p

/-- A reader, the calls that ask it, and what has come of them. -/
structure Readout where
  reader : Reader
  inquiries : Nat → Option Inquiry := fun _ => none
  /-- How many calls there have been. -/
  asked : Nat := 0
  /-- The gets that were answered, with the calls that made them. -/
  gets : List (Nat × Except Failure (Option Bytes)) := []
  consulted : List Consultation := []
  /-- What calls were told. -/
  told : List (Nat × Reader.Field × Except Failure (Option Reader.Answer)) := []

namespace Readout

variable (s : Readout)

/-- A call goes on, or is over. -/
def carry (id : Nat) (i : Option Inquiry) : Readout :=
  { s with inquiries := Function.update s.inquiries id i }

/-- A get of a call was answered, and this came of it. -/
def receive (id : Nat) (i : Inquiry) (answer : Except Failure (Option Bytes))
    (consulted : List Consultation) (made : Except Failure Fetched) : Readout where
  reader := s.reader.settle id made
  inquiries := Function.update s.inquiries id <| match made with
    | .ok _ => some { i with todo := i.todo.tail, standing := .ready }
    | .error _ => none
  asked := s.asked
  gets := s.gets ++ [(id, answer)]
  consulted := s.consulted ++ consulted
  told := match made with
    | .ok _ => s.told
    | .error f => s.told ++ [(id, i.field, .error f)]

/-- What happens to calls. -/
inductive Event where
  | asked (id : Nat) (field : Reader.Field)
  | found (id : Nat)
  | joined (id : Nat)
  | fetched (id : Nat)
  | received (id : Nat) (answer : Except Failure (Option Bytes))
  | derived (id : Nat)
  | answered (id : Nat)
  | calledOff (id : Nat)

/-- The steps of calls. -/
inductive Step : Readout → Event → Readout → Prop where
  | ask {s : Readout} (field : Reader.Field) :
      Step s (.asked s.asked field)
        { s.carry s.asked (some { field, todo := field.parts }) with asked := s.asked + 1 }
  /-- The next part is there, at once or after waiting for it. -/
  | find {s : Readout} (id : Nat) {i : Inquiry} {p : Reader.Part} {rest : List Reader.Part}
      (here : s.inquiries id = some i) (todo : i.todo = p :: rest) (still : i.standing ≠ .fetching)
      (made : s.reader.has p = true) :
      Step s (.found id) (s.carry id (some { i with todo := rest, standing := .ready }))
  | join {s : Readout} (id : Nat) {i : Inquiry} {p : Reader.Part} {rest : List Reader.Part}
      (here : s.inquiries id = some i) (todo : i.todo = p :: rest) (ready : i.standing = .ready)
      (missing : s.reader.has p = false) :
      Step s (.joined id)
        { s.carry id (some { i with standing := .waiting }) with reader := s.reader.enter id p }
  /-- It is the turn of a call to fetch the content, and it makes a get. -/
  | fetch {s : Readout} (id : Nat) {i : Inquiry} {rest : List Reader.Part}
      (here : s.inquiries id = some i) (todo : i.todo = .content :: rest)
      (waiting : i.standing = .waiting) (missing : s.reader.has .content = false)
      (turn : s.reader.admits id .content = true) :
      Step s (.fetched id) (s.carry id (some { i with standing := .fetching }))
  /-- The get of a call is answered, and the call goes on with its plan to the end. -/
  | receive {s : Readout} (id : Nat) {i : Inquiry} (here : s.inquiries id = some i)
      (fetching : i.standing = .fetching) {next : Except Failure (Option Bytes) → Plan Fetched}
      (plan : s.reader.plan = .call (.get s.reader.key) next)
      (answer : Except Failure (Option Bytes)) {consulted : List Consultation}
      {made : Except Failure Fetched} (concludes : (next answer).Concludes consulted made) :
      Step s (.received id answer) (s.receive id i answer consulted made)
  /-- It is the turn of a call to make another part. -/
  | derive {s : Readout} (id : Nat) {i : Inquiry} {p : Reader.Part} {rest : List Reader.Part}
      (here : s.inquiries id = some i) (todo : i.todo = p :: rest) (derived : p ≠ .content)
      (waiting : i.standing = .waiting) (missing : s.reader.has p = false)
      (turn : s.reader.admits id p = true) :
      Step s (.derived id)
        { s.carry id (some { i with todo := rest, standing := .ready }) with
          reader := s.reader.derive id p }
  | answer {s : Readout} (id : Nat) {i : Inquiry} (here : s.inquiries id = some i)
      (all : i.todo = []) :
      Step s (.answered id)
        { s.carry id none with told := s.told ++ [(id, i.field, .ok (s.reader.answer? i.field))] }
  | callOff {s : Readout} (id : Nat) {i : Inquiry} (here : s.inquiries id = some i) :
      Step s (.calledOff id) { s.carry id none with reader := i.leave id s.reader }

end Readout
end CertWatch
