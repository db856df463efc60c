/-!
# Waiting lines

Something that only one at a time may have is held by the head of a line; whoever comes later waits
behind, and nobody is overtaken. A cell that is filled once is made from such a line: its head tries
to fill it, and when that succeeds nobody has to wait any more.
-/

namespace CertWatch
set_option autoImplicit false

/-- A line of numbered participants. -/
structure Line where
  members : List Nat := []
  deriving DecidableEq, Repr

namespace Line

/-- Joins at the end. -/
def enter (l : Line) (id : Nat) : Line := ⟨l.members ++ [id]⟩

/-- Whether a participant is at the head. -/
def holds (l : Line) (id : Nat) : Bool := l.members.head? = some id

/-- Leaves, from the head or from further back. -/
def leave (l : Line) (id : Nat) : Line := ⟨l.members.erase id⟩

end Line

/-- A cell that is filled once, by one participant at a time. -/
structure Once (α : Type) where
  value : Option α := none
  line : Line := {}
  deriving Repr

namespace Once

variable {α : Type}

/-- Joins those who want the value. -/
def enter (c : Once α) (id : Nat) : Once α := { c with line := c.line.enter id }

/-- Whether a participant can go on: there is a value, or it is its turn to make one. -/
def admits (c : Once α) (id : Nat) : Bool := c.value.isSome || c.line.holds id

/-- What the participant at the head came to: a value fills the cell and dissolves the line, a
failure passes the turn on and leaves no trace. -/
def settle (c : Once α) (id : Nat) {ε : Type} : Except ε α → Once α
  | .ok a => { value := some a }
  | .error _ => { c with line := c.line.leave id }

/-- Gives up wanting the value. -/
def leave (c : Once α) (id : Nat) : Once α := { c with line := c.line.leave id }

end Once
end CertWatch
