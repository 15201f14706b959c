import MangledNames.Grammar.Encoding
set_option autoImplicit false

/-!
The productions tied together: each level of nesting reads with the rules of the levels that are
left below it, so that the recursion limit is what makes the recursion end.
-/

namespace MangledNames.Grammar

def Rules.next (r : Rules) : Rules where
  encoding := nested (Grammar.encoding r)
  specialName := nested (Grammar.specialName r)
  name := nested (Grammar.name r)
  nestedName := nested (Grammar.nestedName r)
  localName := nested (Grammar.localName r)
  unqualifiedName := nested (Grammar.unqualifiedName r)
  templateArgs := nested (Grammar.templateArgs r)
  templateArg := nested (Grammar.templateArg r)
  type := nested (Grammar.type r)
  expression := nested (Grammar.expression r)
  exprPrimary := nested (Grammar.exprPrimary r)
  unresolvedName globalScope := nested (Grammar.unresolvedName r globalScope)

/-- The rules with so many levels of nesting left. -/
def Rules.levels : Nat → Rules
  | 0 => .exhausted
  | n + 1 => (Rules.levels n).next

def Context.levelsLeft (context : Context) : Nat := context.recursionLimit - context.depth

def reading {α : Type} (production : Rules → Parser α) : Parser α := fun context =>
  production (Rules.levels context.levelsLeft) context

end MangledNames.Grammar
