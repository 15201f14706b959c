import MangledNames.Grammar.Lexeme
import MangledNames.Grammar.Rules
set_option autoImplicit false

/-!
Back references, template parameters and template arguments.
-/

namespace MangledNames.Grammar

open Cursor

def substitution : Parser Node := do
  let start ← here
  expect "S" "substitution"
  if ← peekIs isLower then
    let letter ← next "substitution"
    match StandardName.ofLetter? letter with
    | some name => return .specialSubstitution name false
    | none => fail (.unexpectedToken "substitution" start.position (String.ofList ['S', letter]))
  else
    let index ← if ← consume "_" then pure 0 else do
      let number ← seqId "substitution"
      expect "_" "substitution"
      pure (number + 1)
    match (← get).substitutions.resolve index start.position with
    | .ok node => return node
    | .error error => fail error

/-- Letters of declarations of template parameters, which are not supported. -/
def isParamDeclaration (c : Char) : Bool := c == 'y' || c == 'n' || c == 't' || c == 'p'

def templateParam : Parser Node := do
  let start ← here
  expect "T" "template parameter"
  if ← lookingAt "L" then
    fail (.unsupportedExtension "template parameter level" start.position)
  if ← peekIs isParamDeclaration then
    fail (.unsupportedExtension "template parameter declaration" start.position)
  if ← consume "_" then return .templateParam 0
  let index ← unsigned "template parameter"
  expect "_" "template parameter"
  return .templateParam (index + 1)

/-- `I <template-arg>+ E`. The arguments of a conversion operator's type may again be templates. -/
def templateArgs (r : Rules) : Parser (List Node) := do
  expect "I" "template arguments"
  allowingTemplateArgs true (itemsToE r.templateArg)

/-- `<type>`, `X <expression> E`, `<expr-primary>`, `J <template-arg>* E`; packs of old compilers
are written as template arguments. -/
def templateArg (r : Rules) : Parser Node := do
  match ← peek with
  | some 'X' =>
    expect "X" "template argument"
    let expression ← r.expression
    expect "E" "template argument expression"
    return expression
  | some 'J' =>
    expect "J" "template argument pack"
    return .templateArgPack (← itemsToE r.templateArg)
  | some 'I' => return .templateArgPack (← r.templateArgs)
  | some 'L' => r.exprPrimary
  | _ => r.type

end MangledNames.Grammar
