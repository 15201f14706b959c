import MangledNames.Printing.Halves
set_option autoImplicit false

/-!
The text of a tree.
-/

namespace MangledNames

open Printing

/-- Printing nests twice as deep as reading: an argument of a template is read once and printed
wherever a parameter refers to it. -/
def Printing.levelsOf (config : Config) : Nat := 2 * config.recursionLimit

def Printing.Sheet.blank (config : Config) : Sheet where
  output := { limit := config.outputSizeLimit, limit_pos := config.outputSizeLimit_pos }

def Node.render (node : Node) (config : Config) : Except Fault String :=
  match (Halves.levels config (levelsOf config)).print {} node (.blank config) with
  | .ok _ sheet => .ok sheet.output.text
  | .error fault _ => .error fault

end MangledNames
