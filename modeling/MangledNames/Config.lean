set_option autoImplicit false

/-!
The options of demangling. The limits cut a run off; the other options change the text.
-/

namespace MangledNames

inductive LiteralCase where
  | lower
  | upper
  deriving DecidableEq, Repr

structure Config where
  omitParameterList : Bool := false
  omitReturnType : Bool := false
  literalCase : LiteralCase := .lower
  closingAngleSpace : Bool := true
  /-- How deep productions may nest. Printing may nest twice as deep. -/
  recursionLimit : Nat := 128
  /-- How long the text may be, and how many nodes may be visited to print it. -/
  outputSizeLimit : Nat := 1048576
  inputSizeLimit : Nat := 65536
  recursionLimit_pos : 1 ≤ recursionLimit := by decide
  recursionLimit_le : recursionLimit ≤ 1024 := by decide
  outputSizeLimit_pos : 1 ≤ outputSizeLimit := by decide
  inputSizeLimit_pos : 1 ≤ inputSizeLimit := by decide

namespace Config

def standard : Config := {}

instance : Inhabited Config := ⟨standard⟩

theorem one_le_toNat {n : Int} (h : 1 ≤ n) : 1 ≤ n.toNat := by omega

end Config

end MangledNames
