import MangledNames.Grammar.Type
set_option autoImplicit false

/-!
Names of functions, data and types.
-/

namespace MangledNames.Grammar

open Cursor

def join (scope : Option Node) (name : Node) : Node :=
  match scope with
  | none => name
  | some scope => .nestedName scope name

def abiTags (name : Node) : Parser Node := do
  let tags ← itemsUntil (return !(← lookingAt "B")) do
    expect "B" "ABI tag"
    identifier
  if tags.isEmpty then return name
  build (.abiTaggedName name tags)

def structuredBindingName : Parser Node := do
  expect "DC" "structured binding"
  let first ← properName
  let others ← itemsToE properName
  build (.structuredBindingName (first :: others))

/-- `Ut [<number>] _`, `Ul <parameter types> E [<number>] _` -/
def unnamedTypeName (r : Rules) : Parser Node := do
  let start ← here
  expect "U" "unnamed type"
  if ← consume "t" then
    build (.unnamedTypeName (← numberSuffix "unnamed type number"))
  else if ← consume "l" then
    if (← lookingAt "T") && (← peekIs isParamDeclaration 1) then
      fail (.unsupportedExtension "lambda template parameter declaration" (← here).position)
    let parameters ← if ← consume "vE" then pure [] else itemsToE r.type
    build (.closureTypeName parameters (← numberSuffix "closure number"))
  else if ← lookingAt "b" then
    fail (.unsupportedExtension "block literal" start.position)
  else unexpected "unnamed type"

/-- An operator's code; `cv <type>` is a conversion, `li <source-name>` a literal operator and
`v <digit> <source-name>` an operator of a vendor. -/
def operatorName (r : Rules) : Parser Named := do
  let start ← here
  match ← takeCode "operator name" with
  | ('c', 'v') =>
    let type ← allowingTemplateArgs false r.type
    return { node := .conversionOperatorName type, traits := { ctorDtorConversion := true } }
  | ('l', 'i') => return { node := .literalOperatorName (← properName) }
  | code =>
    if code.1 == 'v' && isDigit code.2 then
      let name ← properName
      return { node := ← build (.vendorOperatorName (digitValue code.2) name) }
    else match Operator.ofCode? code with
      | some operator => return { node := .operatorName operator }
      | none => fail (.unexpectedToken "operator name" start.position (Code.text code))

/-- `C1` … `C5`, `D0` … `D5`, or `CI1`, `CI2` and the base class whose
constructors are taken over. -/
def ctorDtorName (r : Rules) (scope : Node) : Parser Named := do
  let start ← here
  let inheriting ← consume "CI"
  let code ← if inheriting then Prod.mk 'C' <$> next "constructor kind"
    else takeCode "constructor or destructor"
  match CtorDtorKind.ofCode? code with
  | none => fail (.unexpectedToken "constructor or destructor" start.position (Code.text code))
  | some kind =>
    let base ← if inheriting then some <$> r.type else pure none
    return {
      node := ← build (.ctorDtorName kind scope.className base)
      traits := { ctorDtorConversion := true } }

def unqualifiedName (r : Rules) : Parser Named := do
  let named : Named ←
    if ← peekIs isDigit then do pure { node := ← sourceName }
    else if ← lookingAt "U" then do pure { node := ← unnamedTypeName r }
    else if ← lookingAt "DC" then do pure { node := ← structuredBindingName }
    else if ← peekIs isLower then operatorName r
    else unexpected "unqualified name"
  return { named with node := ← abiTags named.node }

def unscopedName (r : Rules) : Parser Named := do
  let inStd ← consume "St"
  let _ ← consume "L"
  let named ← r.unqualifiedName
  return if inStd then { named with node := .nestedName .std named.node } else named

def expandAbbreviation : Node → Node
  | .specialSubstitution name _ => .specialSubstitution name true
  | scope => scope

def nestedComponent (r : Rules) (scope : Option Node) (traits : NameTraits) : Parser Named := do
  let traits := { traits with endsWithTemplateArgs := false }
  let unqualified : Parser Named := do
    let named ← r.unqualifiedName
    return {
      node := join scope named.node
      traits := { traits with
        ctorDtorConversion := traits.ctorDtorConversion || named.traits.ctorDtorConversion } }
  let ctorDtor (scope : Node) : Parser Named := do
    let named ← ctorDtorName r scope
    return {
      node := .nestedName (expandAbbreviation scope) (← abiTags named.node)
      traits := { traits with ctorDtorConversion := true } }
  match ← peek with
  | some 'I' =>
    match scope with
    | none => unexpected "nested name prefix"
    | some scope => return {
        node := .templateName scope (← r.templateArgs)
        traits := { traits with endsWithTemplateArgs := true } }
  | some 'T' => return { node := join scope (← templateParam), traits := traits }
  | some 'C' =>
    match scope with
    | none => unqualified
    | some scope => ctorDtor scope
  | some 'D' =>
    if ← peekIs (fun c => c == 't' || c == 'T') 1 then
      return { node := join scope (← decltype r), traits := traits }
    else match scope with
      | none => unqualified
      | some scope => if ← lookingAt "DC" then unqualified else ctorDtor scope
  | _ => unqualified

/-- One step through a nested name. The complete name is not the scope of anything, so it is not
remembered; neither is a back reference, which is an entry already. -/
def nestedRound (r : Rules) : Option Node × NameTraits →
    Parser (Round (Option Node × NameTraits) Named)
  | (scope, traits) => do
    let start ← here
    if ← consume "E" then
      match scope with
      | some node => return .done ⟨node, traits⟩
      | none => fail (.unexpectedToken "nested name" start.position "E")
    else
      let _ ← consume "L"
      let start ← here
      if ← consume "M" then
        -- the scope of an initializer, which is not printed
        if scope.isNone then fail (.unexpectedToken "nested name prefix" start.position "M")
        return .again (scope, traits)
      else if ← lookingAt "S" then
        if scope.isSome then unexpected "nested name component"
        return .again (some (← substitution), { traits with endsWithTemplateArgs := false })
      else
        let named ← nestedComponent r scope traits
        unless ← lookingAt "E" do remember named.node
        return .again (some named.node, named.traits)

def nestedName (r : Rules) : Parser Named := do
  expect "N" "nested name"
  let cv ← cvQualifiers
  let ref ← refQualifier
  let scope := if ← consume "St" then some .std else none
  repeatRound (nestedRound r) (scope, { cv := cv, ref := ref })

/-- `Z <encoding> E <name> [<discriminator>]`, `Z <encoding> E s [<discriminator>]` or
`Z <encoding> E d [<number>] _ <name>` -/
def localName (r : Rules) : Parser Named := do
  expect "Z" "local name"
  if ← peekIs (fun c => c == 'T' || c == 'G') then unexpected "function encoding"
  match ← r.encoding with
  | .encoding function =>
    expect "E" "local name"
    if ← consume "s" then
      discriminator
      return { node := .localName function .stringLiteralName }
    else if ← consume "d" then
      unless ← consume "_" do
        let _ ← digits "default argument number"
        expect "_" "default argument number"
      let entity ← r.name
      return { entity with node := .localName function entity.node }
    else
      let entity ← r.name
      discriminator
      return { entity with node := .localName function entity.node }
  | _ => throw (.broken .localInEncoding)

/-- A back reference is a name only with template arguments, unless it is an abbreviation. -/
def substitutedName (r : Rules) : Parser Named := do
  let name ← substitution
  if ← lookingAt "I" then
    return {
      node := .templateName name (← r.templateArgs)
      traits := { endsWithTemplateArgs := true } }
  else match name with
    | .specialSubstitution _ _ => return { node := name }
    | _ => unexpected "template arguments"

def name (r : Rules) : Parser Named := do
  if ← lookingAt "N" then r.nestedName
  else if ← lookingAt "Z" then r.localName
  else if (← lookingAt "S") && !(← lookingAt "St") then substitutedName r
  else
    let named ← unscopedName r
    if ← lookingAt "I" then
      remember named.node
      return {
        node := .templateName named.node (← r.templateArgs)
        traits := { named.traits with endsWithTemplateArgs := true } }
    else return named

end MangledNames.Grammar
