import MangledNames.Grammar.Template
set_option autoImplicit false

/-!
Types. Each one but the builtin types and the back references becomes available to back references
once it is complete.
-/

namespace MangledNames.Grammar

open Cursor

def decltype (r : Rules) : Parser Node := do
  unless ← consumeAny ["Dt", "DT"] do unexpected "decltype"
  let expression ← r.expression
  expect "E" "decltype"
  return .decltypeType expression

def exceptionSpec (r : Rules) : Parser (Option (ExceptionSpec Node)) := do
  if ← consume "Do" then return some (.noexcept none)
  if ← consume "DO" then
    let condition ← r.expression
    expect "E" "exception specification"
    return some (.noexcept (some condition))
  if ← consume "Dw" then return some (.throwing (← itemsToE r.type))
  return none

def functionTypeEnd : Scan (Option (Option ReferenceKind)) := do
  if ← consume "E" then return some none
  if ← consume "RE" then return some (some .lvalue)
  if ← consume "OE" then return some (some .rvalue)
  return none

/-- Parameters of a function type; a `v` among them stands for none. -/
def functionTypeParameters (r : Rules) : Parser (List Node × Option ReferenceKind) :=
  repeatRound (fun parameters => do
    if let some ref ← functionTypeEnd then return .done (parameters.reverse, ref)
    if ← consume "v" then return .again parameters
    return .again ((← r.type) :: parameters)) []

/-- `[<exception-spec>] [Dx] F [Y] <return type> <parameter types> [<ref-qualifier>] E` -/
def functionType (r : Rules) : Parser Node := do
  let exceptionSpec ← exceptionSpec r
  let transactionSafe ← consume "Dx"
  expect "F" "function type"
  let externC ← consume "Y"
  let returnType ← r.type
  let (parameters, ref) ← functionTypeParameters r
  return .functionType {
    returnType := returnType
    parameters := parameters
    ref := ref
    exceptionSpec := exceptionSpec
    externC := externC
    transactionSafe := transactionSafe }

def arrayType (r : Rules) : Parser Node := do
  expect "A" "array type"
  let dimension ←
    if ← consume "_" then pure none
    else if ← peekIs isDigit then do
      let size ← unsigned "array dimension"
      expect "_" "array dimension"
      pure (some (.size size))
    else do
      let expression ← r.expression
      expect "_" "array dimension"
      pure (some (.expression expression))
  return .arrayType (← r.type) dimension

def vectorType (r : Rules) : Parser Node := do
  expect "Dv" "vector type"
  let dimension ←
    if ← consume "_" then Dimension.expression <$> r.expression
    else Dimension.size <$> unsigned "vector dimension"
  expect "_" "vector dimension"
  return .vectorType (← r.type) dimension

/-- Qualifiers of a function type are those of a member function. -/
def qualify (cv : CvQualifiers) : Node → Parser Node
  | .functionType f => pure (.functionType { f with cv := f.cv.union cv })
  | inner => build (.qualifiedType inner cv)

def builtinAfterD : Parser Node := do
  let start ← here
  match start.rest with
  | 'D' :: letter :: _ =>
    match BuiltinType.ofLetterAfterD? letter with
    | some type =>
      let _ ← takeCode "type"
      return .builtinType type
    | none => fail (.unexpectedToken "type" start.position (String.ofList ['D', letter]))
  | _ => fail (.unexpectedEnd "type" start.length)

def typeAfterD (r : Rules) : Parser Node := do
  match ← peek 1 with
  | some 'p' => remembered do
    let _ ← takeCode "pack expansion"
    return .packExpansion (← r.type)
  | some 't' | some 'T' => remembered (decltype r)
  | some 'v' => remembered (vectorType r)
  | some 'o' | some 'O' | some 'w' | some 'x' => remembered (functionType r)
  | some 'F' =>
    let _ ← takeCode "_FloatN type"
    let bits ← digits "_FloatN width"
    expect "_" "_FloatN type"
    return .builtinType (.floatN (String.ofList bits))
  | _ => builtinAfterD

def typeAfterT (r : Rules) : Parser Node := do
  match (← peek 1).bind ElaboratedKeyword.ofLetter? with
  | some keyword => remembered do
    let _ ← takeCode "elaborated type"
    return .elaboratedType keyword (← r.name).node
  | none => remembered do
    let param ← templateParam
    if (← get).templateArgsAllowed && (← lookingAt "I") then
      remember param
      return .templateName param (← r.templateArgs)
    else return param

def typeAfterS (r : Rules) : Parser Node := do
  if (← peek 1) == some 't' then remembered (Named.node <$> r.name)
  else
    let name ← substitution
    if (← get).templateArgsAllowed && (← lookingAt "I") then
      remembered (.templateName name <$> r.templateArgs)
    else return name

def type (r : Rules) : Parser Node := do
  match ← peek with
  | none => unexpected "type"
  | some 'r' | some 'V' | some 'K' => remembered do
    let cv ← cvQualifiers
    qualify cv (← r.type)
  | some 'U' => remembered do
    expect "U" "vendor qualifier"
    let qualifier ← identifier
    let arguments ← r.templateArgs?
    return .vendorQualifiedType (← r.type) qualifier arguments
  | some 'P' => remembered do
    expect "P" "pointer"
    return .pointerType (← r.type)
  | some 'R' => remembered do
    expect "R" "reference"
    return .referenceType (← r.type) .lvalue
  | some 'O' => remembered do
    expect "O" "reference"
    return .referenceType (← r.type) .rvalue
  | some 'C' => remembered do
    expect "C" "complex type"
    return .complexType (← r.type)
  | some 'G' => remembered do
    expect "G" "imaginary type"
    return .imaginaryType (← r.type)
  | some 'F' => remembered (functionType r)
  | some 'A' => remembered (arrayType r)
  | some 'M' => remembered do
    expect "M" "pointer to member"
    let classType ← r.type
    return .pointerToMemberType classType (← r.type)
  | some 'T' => typeAfterT r
  | some 'D' => typeAfterD r
  | some 'u' => remembered do
    expect "u" "vendor extended type"
    let name ← identifier
    return .vendorExtendedType name (← r.templateArgs?)
  | some 'S' => typeAfterS r
  | some 'N' | some 'Z' => remembered (Named.node <$> r.name)
  | some c =>
    if isDigit c then remembered (Named.node <$> r.name)
    else match BuiltinType.ofLetter? c with
      | some type =>
        let _ ← next "type"
        return .builtinType type
      | none => unexpected "type"

end MangledNames.Grammar
