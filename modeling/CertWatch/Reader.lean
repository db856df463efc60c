import CertWatch.KeyPath
import CertWatch.Line
import CertWatch.Scope
import CertWatch.Text.Quoted

/-!
# Readers

A reader stands for one key of a scope. An answer is made of up to three parts: the content of the
key, which has to be fetched, the envelope in it, and the digest of the key with its value. Each part
is made once, however many ask at the same time: one of them makes it while the others wait. A failure
to fetch is told to the one who fetched, and is not kept.
-/

namespace CertWatch
set_option autoImplicit false

namespace Reader

/-- What a reader can be asked for. -/
inductive Field where
  | value
  | modified
  | digest
  | record
  deriving DecidableEq, Repr

/-- What a reader answers. -/
inductive Answer where
  | value (bytes : Bytes)
  | modified (time : Option Timestamp)
  | digest (digest : Digest)
  | record (record : Record)
  deriving DecidableEq

/-- What a reader makes once and keeps. -/
inductive Part where
  | content
  | envelope
  | digest
  deriving DecidableEq, Repr

/-- The parts that an answer is made of, in the order in which they are made. -/
def Field.parts : Field → List Part
  | value => [.content, .envelope]
  | modified => [.content, .envelope]
  | digest => [.content, .envelope, .digest]
  | record => [.content, .envelope, .digest]

end Reader

/-- A reader of one key. -/
structure Reader where
  scope : Scope
  key : String
  content : Once Fetched := {}
  envelope : Once Envelope := {}
  digest : Once Digest := {}

namespace Reader

/-- The reader of a key, which must not be empty. -/
def create (scope : Scope) (key : String) : Except Failure Reader :=
  (KeyPath.ofKey scope.name key).map fun _ => { scope, key }

/-- Whether the key was fetched. -/
def isLoaded (r : Reader) : Bool := r.content.value.isSome

/-- The plan to fetch the key. -/
def plan (r : Reader) : Plan Fetched := r.scope.fetch r.key

/-- Whether a part was made. -/
def has (r : Reader) : Part → Bool
  | .content => r.content.value.isSome
  | .envelope => r.envelope.value.isSome
  | .digest => r.digest.value.isSome

/-- Joins those who want a part. -/
def enter (r : Reader) (id : Nat) : Part → Reader
  | .content => { r with content := r.content.enter id }
  | .envelope => { r with envelope := r.envelope.enter id }
  | .digest => { r with digest := r.digest.enter id }

/-- Whether a participant who wants a part can go on: it was made, or it is its turn to make it. -/
def admits (r : Reader) (id : Nat) : Part → Bool
  | .content => r.content.admits id
  | .envelope => r.envelope.admits id
  | .digest => r.digest.admits id

/-- Gives up wanting a part. -/
def leave (r : Reader) (id : Nat) : Part → Reader
  | .content => { r with content := r.content.leave id }
  | .envelope => { r with envelope := r.envelope.leave id }
  | .digest => { r with digest := r.digest.leave id }

/-- What the participant at the head came to when it fetched the content. -/
def settle (r : Reader) (id : Nat) (made : Except Failure Fetched) : Reader :=
  { r with content := r.content.settle id made }

/-- Makes a part from the part before it, by the participant at the head. The content is made from
nothing that is there. -/
def derive (r : Reader) (id : Nat) : Part → Reader
  | .content => r
  | .envelope => match r.content.value with
    | some f => { r with envelope := r.envelope.settle id (.ok f.envelope : Except Failure Envelope) }
    | none => r
  | .digest => match r.envelope.value with
    | some e =>
      let digest := Record.digestOf r.key e.value
      { r with digest := r.digest.settle id (.ok digest : Except Failure Digest) }
    | none => r

/-- The answer, once all its parts were made. -/
def answer? (r : Reader) : Field → Option Answer
  | .value => do return .value (← r.envelope.value).value
  | .modified => do return .modified (← r.envelope.value).modified
  | .digest => do return .digest (← r.digest.value)
  | .record => do
    let e ← r.envelope.value
    return .record ⟨r.key, (← r.content.value).raw, e.value, e.modified, ← r.digest.value⟩

/-- What a developer sees of a reader: whether it has read, and whether values are sealed. -/
def summary (r : Reader) : String :=
  let (value, modified) := match r.envelope.value with
    | none => ("[NOT LOADED]", Text.quoted "[NOT LOADED]")
    | some e => ("[LOADED]", Text.optional (e.modified.map Timestamp.toZuluText))
  s!"StorageReader \x7b key: {Text.quoted r.key}, value: {Text.quoted value}, " ++
    s!"modified: {modified}, crypto: {r.scope.sealKey.isSome} \x7d"

end Reader
end CertWatch
