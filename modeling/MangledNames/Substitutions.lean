import MangledNames.Node
import MangledNames.Fault
set_option autoImplicit false

/-!
The table of substitutions: the components that back references can name, in the order in which
the symbol first spells them.
-/

namespace MangledNames

structure Substitutions where
  entries : Array Node := #[]

namespace Substitutions

def empty : Substitutions := {}

def size (t : Substitutions) : Nat := t.entries.size

def toList (t : Substitutions) : List Node := t.entries.toList

def append (t : Substitutions) (node : Node) : Substitutions := ⟨t.entries.push node⟩

def resolve (t : Substitutions) (index : Int) (offset : Nat) : Except DemangleError Node :=
  if index < 0 then .error (.badBackReference index t.size offset)
  else match t.entries[index.toNat]? with
    | some node => .ok node
    | none => .error (.badBackReference index t.size offset)

/-- Drops the entries that were appended after the table had `checkpoint` of them. -/
def restore (t : Substitutions) (checkpoint : Int) : Except Fault Substitutions :=
  if 0 ≤ checkpoint ∧ checkpoint ≤ t.size then .ok ⟨t.entries.shrink checkpoint.toNat⟩
  else .error (.broken .checkpointBehind)

end Substitutions

end MangledNames
