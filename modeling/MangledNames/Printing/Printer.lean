import MangledNames.Config
import MangledNames.Node
import MangledNames.Output
set_option autoImplicit false

/-!
Printing within limits: the text so far and the number of steps made to write it.
-/

namespace MangledNames.Printing

structure Sheet where
  output : Output
  visits : Nat := 0

abbrev Printer := EStateM Fault Sheet

def writing {α : Type} (action : Output.Writing α) : Printer α := fun ⟨output, visits⟩ =>
  match action output with
  | .ok a output => .ok a ⟨output, visits⟩
  | .error fault output => .error fault ⟨output, visits⟩

instance : MonadLift Output.Writing Printer := ⟨writing⟩

def fail {α : Type} (error : DemangleError) : Printer α := throw (.error error)

def write (text : String) : Printer Unit := Output.write text

def mark : Printer Nat := fun sheet => .ok sheet.output.mark sheet

def last : Printer (Option Char) := fun sheet => .ok sheet.output.last sheet

/-- Counts a step. There are no more of them than characters that may be written. -/
def step (config : Config) : Printer Unit := fun ⟨output, visits⟩ =>
  if visits + 1 > config.outputSizeLimit then
    .error (.error (.outputTooLarge config.outputSizeLimit)) ⟨output, visits + 1⟩
  else .ok () ⟨output, visits + 1⟩

/-- Prints items after others of the same list. An item that prints nothing, such as an empty
pack, leaves no separator behind. -/
def listFrom {α : Type} (print : α → Printer Unit) (printed : Bool) : List α → Printer Unit
  | [] => pure ()
  | item :: items => do
    let before ← mark
    if printed then write ", "
    let content ← mark
    print item
    if (← mark) = content then
      Output.rollback before
      listFrom print printed items
    else listFrom print true items

def list {α : Type} (print : α → Printer Unit) (items : List α) : Printer Unit :=
  listFrom print false items

end MangledNames.Printing
