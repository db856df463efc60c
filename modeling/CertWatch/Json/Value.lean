import CertWatch.Json.Lexical
import CertWatch.Table

/-!
# JSON values

`Json.parse?` reads one value from a whole byte string. Objects keep their members in the order of
the names, and of two members with one name the last. At most 127 arrays and objects may lie inside
each other.
-/

namespace CertWatch
set_option autoImplicit false

/-- A JSON value. -/
inductive Json where
  | null
  | bool (b : Bool)
  | number (n : Json.Number)
  | string (s : String)
  | array (items : List Json)
  | object (members : List (String × Json))

namespace Json

/-- The object with the given members. -/
def ofMembers (members : List (String × Json)) : Json := object (Table.ofList members).entries

/-- The member of an object. -/
def member? (name : String) : Json → Option Json
  | object members => (members.find? fun m => m.1 = name).map Prod.snd
  | _ => none

/-- The text of a string. -/
def text? : Json → Option String
  | string s => some s
  | _ => none

/-- A value that is no array and no object. -/
def scalar : Scan Json := fun bs =>
  match bs with
  | 0x6E :: _ => (literal [0x6E, 0x75, 0x6C, 0x6C] bs).map fun (_, r) => (null, r)
  | 0x74 :: _ => (literal [0x74, 0x72, 0x75, 0x65] bs).map fun (_, r) => (bool true, r)
  | 0x66 :: _ => (literal [0x66, 0x61, 0x6C, 0x73, 0x65] bs).map fun (_, r) => (bool false, r)
  | 0x22 :: _ => (quoted bs).map fun (s, r) => (string s, r)
  | _ => do
    let (x, r) ← numeral bs
    let n ← x.value?
    return (number n, r)

/-- A value with at most `depth` arrays and objects inside each other. -/
def value : Nat → Scan Json
  | depth, 0x5B :: rest =>
    match depth with
    | 0 => none
    | depth + 1 => (enclosed 0x5D (value depth) rest).map fun (items, r) => (array items, r)
  | depth, 0x7B :: rest =>
    match depth with
    | 0 => none
    | depth + 1 =>
      (enclosed 0x7D (member quoted (value depth)) rest).map fun (members, r) =>
        (ofMembers members, r)
  | _, bs => scalar bs

/-- How many arrays and objects may lie inside each other. -/
def deepest : Nat := 127

/-- Reads a whole text as one value. -/
def parse? (bs : Bytes) : Option Json :=
  match value deepest (skipSpace bs) with
  | some (v, rest) => if skipSpace rest = [] then some v else none
  | none => none

end Json
end CertWatch
