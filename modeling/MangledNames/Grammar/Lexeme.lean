import MangledNames.Grammar.Parser
set_option autoImplicit false

/-!
The words of the grammar: sequence numbers, identifiers, discriminators and qualifiers.
-/

namespace MangledNames.Grammar

open Cursor

def isSeqDigit (c : Char) : Bool := isDigit c || ('A' ≤ c && c ≤ 'Z')

def seqId (production : String) : Scan Nat := do
  let c ← get
  match c.rest.takeWhile isSeqDigit with
  | [] => Cursor.unexpected production
  | found =>
    set (advance found.length c)
    return numeral 36 found

/-- Tells apart entities of one name in one function; it is not printed.
A digit after `_`, or a number between `__` and `_`. -/
def discriminator : Scan Unit := do
  if (← lookingAt "_") && (← peekIs isDigit 1) then
    let _ ← takeCode "discriminator"
  else if (← lookingAt "__") && (← peekIs isDigit 2) then
    let _ ← takeCode "discriminator"
    let _ ← digits "discriminator"
    expect "_" "discriminator"

/-- A number from one on, where the first is written as `_` and the second as `0_`. -/
def numberSuffix (production : String) : Scan Nat := do
  if ← consume "_" then return 1
  let number ← unsigned production
  expect "_" production
  return number + 2

def identifier : Scan String := do
  let start ← get
  let length ← unsigned "identifier length"
  if length = 0 then
    Cursor.fail (.unexpectedToken "identifier length" start.position "0")
  return String.ofList (← takeChars length "identifier")

def cvQualifiers : Scan CvQualifiers := do
  let restrict ← consume "r"
  let volatile ← consume "V"
  let const ← consume "K"
  return ⟨restrict, volatile, const⟩

def refQualifier : Scan (Option ReferenceKind) := do
  if ← consume "R" then return some .lvalue
  if ← consume "O" then return some .rvalue
  return none

def isAnonymousNamespace (name : List Char) : Bool :=
  "_GLOBAL_.N".toList.isPrefixOf name || "_GLOBAL__N".toList.isPrefixOf name
    || "_GLOBAL_$N".toList.isPrefixOf name

def properName : Parser String := do
  let name ← identifier
  let name := if isAnonymousNamespace name.toList then "(anonymous namespace)" else name
  let _ ← build (.sourceName name)
  return name

def sourceName : Parser Node := .sourceName <$> properName

end MangledNames.Grammar
