set_option autoImplicit false

/-!
What a run can end with instead of a value: an error that tells the caller about the symbol or a
limit, or a broken promise of the library itself.
-/

namespace MangledNames

inductive DemangleError where
  | notMangledName (symbol : String)
  | unexpectedEnd (production : String) (offset : Nat)
  | unexpectedToken (production : String) (offset : Nat) (token : String)
  | badBackReference (index : Int) (size offset : Nat)
  | badTemplateParamReference (index : Nat)
  | unsupportedExtension (extension : String) (offset : Nat)
  | recursionLimitExceeded (limit : Nat)
  | outputTooLarge (limit : Nat)
  | inputTooLarge (size limit : Nat)
  deriving DecidableEq, Repr

/-- The distinction callers act on: show the text as it is, report it as damaged, or raise a
limit. -/
inductive ErrorCategory where
  | notMangled
  | malformed
  | limit
  deriving DecidableEq, Repr

namespace DemangleError

def category : DemangleError → ErrorCategory
  | notMangledName _ => .notMangled
  | unexpectedEnd _ _ | unexpectedToken _ _ _ | badBackReference _ _ _
  | badTemplateParamReference _ | unsupportedExtension _ _ => .malformed
  | recursionLimitExceeded _ | outputTooLarge _ | inputTooLarge _ _ => .limit

def message : DemangleError → String
  | notMangledName symbol =>
    "`" ++ String.ofList (symbol.toList.take 32) ++ "` does not start with a mangled name prefix"
  | unexpectedEnd production offset =>
    s!"unexpected end of input at offset {offset}, expecting {production}"
  | unexpectedToken production offset token =>
    s!"unexpected `{token}` at offset {offset}, expecting {production}"
  | badBackReference index size offset =>
    s!"back reference #{index} at offset {offset} points outside substitution table of size {size}"
  | badTemplateParamReference index =>
    s!"template parameter #{index} does not refer to any template argument"
  | unsupportedExtension extension offset =>
    s!"unsupported grammar extension ({extension}) at offset {offset}"
  | recursionLimitExceeded limit => s!"nesting deeper than recursion limit ({limit})"
  | outputTooLarge limit => s!"demangled output exceeds output size limit ({limit})"
  | inputTooLarge size limit => s!"symbol of length {size} exceeds input size limit ({limit})"

end DemangleError

/-- Promises that callers of the library make, or that its parts make to each other. -/
inductive Promise where
  | cursorInside
  | countNatural
  | checkpointBehind
  | nodeWellFormed
  | localInEncoding
  | itemConsumes
  | symbolMarked
  /-- Signatures and exception specifications are printed by what they belong to. -/
  | nodePrintable
  | digitsHexadecimal
  | markBehind
  | roomForOutput
  | entryComplete
  | symbolsSorted
  deriving DecidableEq, Repr

inductive Fault where
  | error (error : DemangleError)
  | broken (promise : Promise)
  deriving DecidableEq, Repr

end MangledNames
