import MangledNames.Config
import MangledNames.Fault
set_option autoImplicit false

/-!
Text that is written in pieces up to a limit and can be withdrawn back to a mark. A mark is the
number of pieces. No piece is empty, so an unchanged mark says that nothing was printed.
-/

namespace MangledNames

structure Output where
  limit : Nat
  chunks : Array String := #[]
  size : Nat := 0
  limit_pos : 1 ≤ limit

namespace Output

def ofLimit? (limit : Int) : Option Output :=
  if h : 1 ≤ limit then some { limit := limit.toNat, limit_pos := Config.one_le_toNat h } else none

abbrev Writing := EStateM Fault Output

/-- Empty text leaves no piece. -/
def write (text : String) : Writing Unit := fun o =>
  if text.isEmpty then .ok () o
  else if o.size + text.length > o.limit then .error (.error (.outputTooLarge o.limit)) o
  else .ok () { o with chunks := o.chunks.push text, size := o.size + text.length }

def last (o : Output) : Option Char := o.chunks.back?.bind (·.toList.getLast?)

def mark (o : Output) : Nat := o.chunks.size

def totalLength : List String → Nat
  | [] => 0
  | piece :: pieces => piece.length + totalLength pieces

/-- Withdraws what was written since the mark. -/
def rollback (mark : Int) : Writing Unit := fun o =>
  if 0 ≤ mark ∧ mark ≤ o.mark then
    let withdrawn := (o.chunks.extract mark.toNat o.chunks.size).toList
    .ok () { o with
      chunks := o.chunks.shrink mark.toNat
      size := o.size - totalLength withdrawn }
  else .error (.broken .markBehind) o

def text (o : Output) : String := String.join o.chunks.toList

end Output

end MangledNames
