import MangledNames.Grammar.Parser
set_option autoImplicit false

/-!
The productions that nest, as a record. Each of them is written over the record of the level below
it, and the number of levels is what the recursion limit leaves.
-/

namespace MangledNames.Grammar

structure NameTraits where
  cv : CvQualifiers := {}
  ref : Option ReferenceKind := none
  endsWithTemplateArgs : Bool := false
  /-- Constructors, destructors and conversions have no return type to spell. -/
  ctorDtorConversion : Bool := false
  deriving DecidableEq, Repr

/-- Only template functions spell their return type. -/
def NameTraits.spellsReturnType (traits : NameTraits) : Bool :=
  traits.endsWithTemplateArgs && !traits.ctorDtorConversion

structure Named where
  node : Node
  traits : NameTraits := {}

structure Rules where
  encoding : Parser Node
  specialName : Parser Node
  name : Parser Named
  nestedName : Parser Named
  localName : Parser Named
  unqualifiedName : Parser Named
  templateArgs : Parser (List Node)
  templateArg : Parser Node
  type : Parser Node
  expression : Parser Node
  exprPrimary : Parser Node
  unresolvedName (globalScope : Bool) : Parser Node

def limitReached {α : Type} : Parser α := do
  fail (.recursionLimitExceeded (← get).recursionLimit)

def Rules.exhausted : Rules where
  encoding := limitReached
  specialName := limitReached
  name := limitReached
  nestedName := limitReached
  localName := limitReached
  unqualifiedName := limitReached
  templateArgs := limitReached
  templateArg := limitReached
  type := limitReached
  expression := limitReached
  exprPrimary := limitReached
  unresolvedName _ := limitReached

def Rules.templateArgs? (r : Rules) : Parser (Option (List Node)) := do
  if ← Cursor.lookingAt "I" then some <$> r.templateArgs else pure none

def Rules.withTemplateArgs (r : Rules) (name : Node) : Parser Node := do
  match ← r.templateArgs? with
  | some arguments => return .templateName name arguments
  | none => return name

end MangledNames.Grammar
