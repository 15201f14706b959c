import MangledNames.HexFloat
import MangledNames.Printing.Printer
set_option autoImplicit false

/-!
The text of literals.
-/

namespace MangledNames.Printing

def cased (config : Config) (text : String) : String :=
  match config.literalCase with
  | .lower => text
  | .upper => text.map Char.toUpper

def floatFormat? : BuiltinType → Option (FloatFormat × String)
  | .float => some (.binary32, "f")
  | .double => some (.binary64, "")
  | _ => none

/-- The format and the suffix of a literal that is printed as a number. One of another width is not,
nor is one in two parts as complex numbers have. -/
def numberFormat? (type : Node) (value : String) : Option (FloatFormat × String) :=
  match type with
  | .builtinType type =>
    match floatFormat? type with
    | some (format, suffix) =>
      if value.toList.length = format.hexDigits ∧ '_' ∉ value.toList then some (format, suffix)
      else none
    | none => none
  | _ => none

def integerSuffix? : Node → Option String
  | .builtinType type => type.literalSuffix?
  | _ => none

end MangledNames.Printing
