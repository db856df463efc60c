import CertWatch.Digest
import CertWatch.Table

/-!
# Changes between two snapshots

A snapshot maps keys to digests. Comparing it with a current listing gives the items whose key is
new, the items whose digest differs, and the keys that are gone.
-/

namespace CertWatch
set_option autoImplicit false

/-- What changed from one snapshot to the next. -/
structure ChangeSet (τ κ : Type) where
  added : List τ
  updated : List τ
  removed : List κ
  deriving DecidableEq

namespace ChangeSet

variable {τ κ : Type}

/-- Whether nothing changed. -/
def isEmpty (c : ChangeSet τ κ) : Bool := c.added.isEmpty && c.updated.isEmpty && c.removed.isEmpty

/-- The number of changes. -/
def size (c : ChangeSet τ κ) : Nat := c.added.length + c.updated.length + c.removed.length

variable [LT κ] [DecidableEq κ]

/-- The items whose key a snapshot does not have, in the order of the listing. -/
def addedTo (previous : Table κ Digest) (current : List (κ × τ)) : List τ :=
  (current.filter fun e => ¬ previous.contains e.1).map Prod.snd

/-- The items whose digest differs from that in a snapshot, in the order of the listing. -/
def updatedIn (previous : Table κ Digest) (digest : τ → Digest) (current : List (κ × τ)) : List τ :=
  (current.filter fun e => match previous.get? e.1 with
    | some before => before ≠ digest e.2
    | none => false).map Prod.snd

/-- The keys of a snapshot that a listing does not have, in ascending order. -/
def removedFrom (previous : Table κ Digest) (current : List (κ × τ)) : List κ :=
  previous.keys.filter fun k => ¬ current.any fun e => e.1 = k

/-- Compares a listing with a snapshot. -/
def between (previous : Table κ Digest) (digest : τ → Digest) (current : List (κ × τ)) :
    ChangeSet τ κ :=
  ⟨addedTo previous current, updatedIn previous digest current, removedFrom previous current⟩

end ChangeSet
end CertWatch
