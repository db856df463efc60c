import CertWatch.Bundle
import CertWatch.Changes
import CertWatch.Config
import CertWatch.Scope
import CertWatch.Text.Quoted

/-!
# Watching bundles

Bundles are put together anew at every poll. Of the keys with the extension of a role and the path
of a bundle, the record with the latest modification is chosen, among equally late ones the one with
the smallest key; records without a value do not count. A bundle that lacks a role is left out. The
watch remembers the bundles of its last successful poll.
-/

namespace CertWatch
set_option autoImplicit false

/-- The changes of bundles: removals are bundle keys. -/
abbrev BundleChanges := ChangeSet Bundle BundleKey

namespace BundleConfig

/-- The role and the bundle of a key, if it has both. -/
def place (c : BundleConfig) (scope : Scope) (key : String) : Option (BundleKey × String) := do
  let path : KeyPath := ⟨scope.name, key⟩
  let role ← path.extension
  if role ∈ c.roles then return (← BundleKey.ofPath? path c.rootFolder, role) else none

/-- The candidates among some keys: a bundle key with its roles and their keys, in the order of the
keys. -/
def candidates (c : BundleConfig) (scope : Scope) (keys : List String) :
    Table BundleKey (List (String × String)) :=
  keys.foldl (fun t key =>
    match c.place scope key with
    | some (bundle, role) => t.insert bundle ((t.get? bundle).getD [] ++ [(role, key)])
    | none => t) .empty

/-- The better of the best record so far and the next: one with a value that is strictly newer. -/
def better (best : Option Record) (next : Record) : Option Record :=
  if next.value = [] then best
  else match best with
    | none => some next
    | some b => if Timestamp.earlier b.modified next.modified then some next else some b

/-- Chooses a record among keys. -/
def choose (scope : Scope) : Option Record → List String → Plan (Option Record)
  | best, [] => pure best
  | best, key :: rest => do choose scope (better best (← scope.record key)) rest

/-- Chooses a record for each role in turn, until a role has none. -/
def chooseAll (scope : Scope) (members : List (String × String)) :
    List String → Plan (Option (List (String × Record)))
  | [] => pure (some [])
  | role :: rest => do
    match ← choose scope none ((members.filter fun m => m.1 = role).map Prod.snd) with
    | none => pure none
    | some record => return (← chooseAll scope members rest).map ((role, record) :: ·)

/-- Puts together the bundle of some candidates. -/
def bundle (c : BundleConfig) (scope : Scope) (e : BundleKey × List (String × String)) :
    Plan (Option Bundle) := do
  return (← chooseAll scope e.2 c.roles).map (Bundle.mk e.1)

/-- Puts all complete bundles together, in the order of their keys. -/
def assemble (c : BundleConfig) (scope : Scope) : Plan (List Bundle) := do
  let found ← (c.candidates scope (← scope.keys)).entries.mapM (c.bundle scope)
  return found.filterMap id

end BundleConfig

/-- The bundles by key. -/
structure BundleWatch where
  previous : Table BundleKey Bundle := .empty

namespace BundleWatch

/-- Whether a bundle comes first in a listing: the one that was modified later, of equally late ones
the one with the smaller key. -/
def comesFirst (a b : Bundle) : Bool :=
  Timestamp.earlier b.modified a.modified ||
    (!Timestamp.earlier a.modified b.modified && !decide (b.key < a.key))

/-- The bundles, the latest first. -/
def current (w : BundleWatch) : List Bundle := w.previous.values.mergeSort comesFirst

/-- Takes over the bundles of a poll; the answer is what changed. -/
def commit (w : BundleWatch) (current : List Bundle) : BundleWatch × BundleChanges :=
  (⟨.ofList (current.map fun b => (b.key, b))⟩,
    .between (w.previous.map Bundle.digest) Bundle.digest (current.map fun b => (b.key, b)))

/-- Puts the bundles of a scope together and takes them over. -/
def poll (w : BundleWatch) (c : BundleConfig) (scope : Scope) :
    Plan (BundleWatch × BundleChanges) := do
  return w.commit (← c.assemble scope)

/-- What a developer sees of a watch. -/
def summary (scope : Scope) (c : BundleConfig) : String :=
  s!"EntityGrouper \x7b namespace: {Text.quoted scope.name}, " ++
    s!"root_folder: {Text.quoted c.rootFolder}, " ++
    s!"roles: {Text.listed (c.roles.map Text.quoted)} \x7d"

end BundleWatch
end CertWatch
