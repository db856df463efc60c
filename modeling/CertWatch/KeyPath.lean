import CertWatch.Failure
import CertWatch.Text.Blank

/-!
# Keys as paths

A key under a namespace is a path: the namespace is taken off the front if the key begins with it,
slashes at the front of the rest are dropped, and what remains is cut at every slash. The last
segment is the file name, which has a stem and an extension on either side of its last dot.
-/

namespace CertWatch
set_option autoImplicit false

/-- A key as it is seen from a namespace. -/
structure KeyPath where
  scope : String
  key : String
  deriving DecidableEq, Repr

namespace KeyPath

/-- The path of a key, which must not be empty. -/
def ofKey (scope key : String) : Except Failure KeyPath :=
  if key = "" then .error (.validation "storage reader key cannot be empty") else .ok ⟨scope, key⟩

/-- Takes a prefix off a text that begins with it. -/
def stripFront (front cs : List Char) : List Char :=
  if front.isPrefixOf cs then cs.drop front.length else cs

/-- Cuts a text at every occurrence of a character. -/
def cut (c : Char) : List Char → List (List Char)
  | [] => [[]]
  | d :: rest =>
    if d = c then [] :: cut c rest
    else match cut c rest with
      | [] => [[d]]
      | s :: more => (d :: s) :: more

/-- Cuts a text at the last occurrence of a character, if it has one. -/
def cutLast (c : Char) : List Char → Option (List Char × List Char)
  | [] => none
  | d :: rest =>
    match cutLast c rest with
    | some (front, back) => some (d :: front, back)
    | none => if d = c then some ([], rest) else none

/-- The key without its namespace and without slashes at the front. -/
def relative (p : KeyPath) : List Char :=
  (stripFront p.scope.toList p.key.toList).dropWhile (· = '/')

/-- The segments of the path. -/
def segments (p : KeyPath) : List String := (cut '/' p.relative).map String.ofList

/-- The segments after the expected ones, none if the path does not begin with those. -/
def after (p : KeyPath) (expected : List String) : List String :=
  if expected.isPrefixOf p.segments then p.segments.drop expected.length else []

/-- A text that is not blank. -/
def unlessBlank (s : String) : Option String := if Text.blank s then none else some s

/-- The last segment, unless it is blank. -/
def fileName (p : KeyPath) : Option String := p.segments.getLast?.bind unlessBlank

/-- The file name up to its last dot, the whole of it without a dot, unless blank. -/
def stem (p : KeyPath) : Option String := do
  let name ← p.fileName
  match cutLast '.' name.toList with
  | some (front, _) => unlessBlank (String.ofList front)
  | none => unlessBlank name

/-- The file name after its last dot, unless there is none or it is blank. -/
def extension (p : KeyPath) : Option String := do
  let name ← p.fileName
  let (_, back) ← cutLast '.' name.toList
  unlessBlank (String.ofList back)

end KeyPath
end CertWatch
