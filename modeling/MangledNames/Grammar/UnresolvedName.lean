import MangledNames.Grammar.Name
set_option autoImplicit false

/-!
Names in expressions whose meaning hangs on template arguments.
-/

namespace MangledNames.Grammar

open Cursor

def simpleId (r : Rules) : Parser Node := do r.withTemplateArgs (← sourceName)

def unresolvedType (r : Rules) : Parser Node := do
  match ← peek with
  | some 'T' => remembered templateParam
  | some 'D' => remembered (decltype r)
  | some 'S' => substitution
  | _ => unexpected "unresolved type"

def baseUnresolvedName (r : Rules) : Parser Node := do
  if ← peekIs isDigit then simpleId r
  else if ← consume "on" then
    r.withTemplateArgs (← operatorName r).node
  else if ← consume "dn" then
    if ← peekIs isDigit then return .destructorName (← simpleId r)
    else return .destructorName (← unresolvedType r)
  else unexpected "unresolved name"

def qualifiedTo (r : Rules) (qualifier : Node) : Parser Node := do
  let levels ← itemsToE (simpleId r)
  return .nestedName (levels.foldl .nestedName qualifier) (← baseUnresolvedName r)

def terminatedLevels (r : Rules) : Parser Node := do qualifiedTo r (← simpleId r)

/-- `<simple-id> <base-unresolved-name>`, which old compilers write -/
def singleLevel (r : Rules) : Parser Node := do
  let qualifier ← simpleId r
  return .nestedName qualifier (← baseUnresolvedName r)

/-- Levels with their terminator, or else a single one without. -/
def qualifierLevels (r : Rules) : Parser Node := do
  if (← get).speculative then terminatedLevels r
  else
    let cursorCheckpoint ← checkpoint
    let substitutionsCheckpoint := (← get).substitutions.size
    match ← trial (terminatedLevels r) with
    | some name => return name
    | none =>
      abandon cursorCheckpoint substitutionsCheckpoint
      singleLevel r

def qualifierType (r : Rules) : Parser Node := do r.withTemplateArgs (← unresolvedType r)

/-- `<base-unresolved-name>`, `sr <unresolved-type> <base-unresolved-name>`,
`srN <unresolved-type> <simple-id>* E <base-unresolved-name>` or
`sr <simple-id>+ E <base-unresolved-name>` -/
def scopedName (r : Rules) : Parser Node := do
  if ← consume "srN" then qualifiedTo r (← qualifierType r)
  else if ← consume "sr" then
    if ← peekIs isDigit then qualifierLevels r
    else
      let qualifier ← qualifierType r
      return .nestedName qualifier (← baseUnresolvedName r)
  else baseUnresolvedName r

def unresolvedName (r : Rules) (globalScope : Bool) : Parser Node := do
  return .unresolvedName (← scopedName r) globalScope

end MangledNames.Grammar
