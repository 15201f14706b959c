import MangledNames.Grammar.UnresolvedName
import MangledNames.HexFloat
set_option autoImplicit false

/-!
Expressions and literals in template arguments, array bounds and exception specifications.
-/

namespace MangledNames.Grammar

open Cursor

def expressionsToE (r : Rules) : Parser (List Node) := itemsToE r.expression

/-- `fp <CV-qualifiers> [<number>] _`, `fL <number> p <CV-qualifiers> [<number>] _` -/
def functionParam : Scan Node := do
  if ← consume "fL" then
    let _ ← unsigned "function parameter level"
    expect "p" "function parameter"
  else expect "fp" "function parameter"
  let _ ← cvQualifiers
  if ← consume "_" then return .functionParam none
  let number ← unsigned "function parameter"
  expect "_" "function parameter"
  return .functionParam (some number)

/-- `nw <expression>* _ <type> E`, `nw <expression>* _ <type> <initializer>`; `na` for arrays -/
def newExpression (r : Rules) (globalScope : Bool) : Parser Node := do
  let array ← lookingAt "na"
  let _ ← takeCode "new expression"
  let placement ← itemsUntil (consume "_") r.expression
  let type ← r.type
  let initializer ←
    if ← consume "pi" then some <$> expressionsToE r
    else if ← lookingAt "il" then do pure (some [← r.expression])
    else do
      expect "E" "new expression"
      pure none
  return .newExpression placement type initializer array globalScope

def deleteExpression (r : Rules) (globalScope : Bool) : Parser Node := do
  let array ← lookingAt "da"
  let _ ← takeCode "delete expression"
  return .deleteExpression (← r.expression) array globalScope

def sizeofPack : Parser Node := do
  let _ ← takeCode "sizeof pack"
  if ← lookingAt "T" then return .sizeofPackExpression (← templateParam)
  else if (← lookingAt "fp") || (← lookingAt "fL") then
    return .sizeofPackExpression (← functionParam)
  else unexpected "sizeof pack"

def memberExpression (r : Rules) (access : MemberAccess) : Parser Node := do
  let _ ← takeCode "member access"
  let object ← r.expression
  return .memberExpression object access (← r.unresolvedName false)

/-- An operator and its operands; a trailing `_` marks the prefix form of `pp` and `mm`. -/
def operatorExpression (r : Rules) (code : Code) : Parser Node := do
  let start ← here
  match Operator.ofCode? code with
  | none => fail (.unexpectedToken "expression" start.position (Code.text code))
  | some operator =>
    let _ ← takeCode "operator"
    match operator.kind with
    | .prefixOp => return .unaryExpression operator (← r.expression) false
    | .postfixOp =>
      if ← consume "_" then return .unaryExpression operator (← r.expression) false
      else return .unaryExpression operator (← r.expression) true
    | .binary | .index =>
      let left ← r.expression
      return .binaryExpression operator left (← r.expression)
    | .conditional =>
      let condition ← r.expression
      let whenTrue ← r.expression
      return .conditionalExpression condition whenTrue (← r.expression)
    | _ => fail (.unexpectedToken "expression" start.position (Code.text code))

def codedExpression (r : Rules) (code : Code) : Parser Node := do
  if let some keyword := CastKeyword.ofCode? code then
    let _ ← takeCode "cast"
    let type ← r.type
    return .castExpression keyword type (← r.expression)
  if let some operator := TypeOperator.ofCode? code then
    let _ ← takeCode "type operator"
    return .typeOperatorExpression operator (← r.type)
  if let some operator := ExpressionOperator.ofCode? code then
    let _ ← takeCode "expression operator"
    return .expressionOperatorExpression operator (← r.expression)
  match code with
  | ('f', 'p') | ('f', 'L') => functionParam
  | ('c', 'l') =>
    let _ ← takeCode "call"
    let callee ← r.expression
    return .callExpression callee (← expressionsToE r)
  | ('c', 'v') =>
    let _ ← takeCode "conversion"
    let type ← r.type
    if ← consume "_" then return .conversionExpression type (← expressionsToE r)
    else return .conversionExpression type [← r.expression]
  | ('t', 'l') =>
    let _ ← takeCode "initializer list"
    let type ← r.type
    return .initListExpression (some type) (← expressionsToE r)
  | ('i', 'l') =>
    let _ ← takeCode "initializer list"
    return .initListExpression none (← expressionsToE r)
  | ('n', 'w') | ('n', 'a') => newExpression r false
  | ('d', 'l') | ('d', 'a') => deleteExpression r false
  | ('s', 'Z') => sizeofPack
  | ('s', 'P') =>
    let _ ← takeCode "sizeof pack"
    return .sizeofPackExpression (.templateArgPack (← itemsToE r.templateArg))
  | ('d', 't') => memberExpression r .dot
  | ('p', 't') => memberExpression r .arrow
  | ('d', 's') =>
    let _ ← takeCode "pointer to member access"
    let object ← r.expression
    return .memberExpression object .dotStar (← r.expression)
  | ('s', 'p') =>
    let _ ← takeCode "pack expansion"
    return .packExpansionExpression (← r.expression)
  | ('t', 'w') =>
    let _ ← takeCode "throw"
    return .throwExpression (some (← r.expression))
  | ('t', 'r') =>
    let _ ← takeCode "rethrow"
    return .throwExpression none
  | _ => operatorExpression r code

def expression (r : Rules) : Parser Node := do
  let start ← here
  match start.rest with
  | [] => unexpected "expression"
  | 'L' :: _ => r.exprPrimary
  | 'T' :: _ => templateParam
  | 'g' :: 's' :: _ =>
    expect "gs" "expression"
    if (← lookingAt "nw") || (← lookingAt "na") then newExpression r true
    else if (← lookingAt "dl") || (← lookingAt "da") then deleteExpression r true
    else r.unresolvedName true
  | 's' :: 'r' :: _ | 'o' :: 'n' :: _ | 'd' :: 'n' :: _ => r.unresolvedName false
  | first :: rest =>
    if isDigit first then r.unresolvedName false
    else match rest with
      | [] => fail (.unexpectedEnd "expression" start.length)
      | second :: _ => codedExpression r (first, second)

def isFloatingType : Node → Bool
  | .builtinType type => type.isFloating
  | .complexType inner => isFloatingType inner
  | .imaginaryType inner => isFloatingType inner
  | _ => false

/-- One number in hex digits, or two for the parts of a complex one, joined by `_`. -/
def isFloatValue (value : List Char) : Bool :=
  let first := value.takeWhile HexFloat.isDigit
  !first.isEmpty && match value.drop first.length with
    | [] => true
    | '_' :: second => !second.isEmpty && second.all HexFloat.isDigit
    | _ => false

def integerValue? : List Char → Option (List Char)
  | 'n' :: digits => if !digits.isEmpty && digits.all isDigit then some ('-' :: digits) else none
  | digits => if !digits.isEmpty && digits.all isDigit then some digits else none

def literalOf (start : Cursor) (type : Node) (value : List Char) : Parser Node :=
  match value with
  | [] =>
    match type with
    | .arrayType _ _ => pure (.stringLiteral type)
    | _ => fail (.unexpectedToken "literal value" start.position "E")
  | first :: _ =>
    match type, value with
    | .builtinType .bool, ['0'] => pure (.boolLiteral false)
    | .builtinType .bool, ['1'] => pure (.boolLiteral true)
    | _, _ =>
      if isFloatingType type then
        if isFloatValue value then
          pure (.floatLiteral type (String.ofList (value.map Char.toLower)))
        else
          fail (.unexpectedToken "floating literal value" start.position (String.singleton first))
      else match integerValue? value with
        | some digits => build (.integerLiteral type (String.ofList digits))
        | none =>
          fail (.unexpectedToken "integer literal value" start.position (String.singleton first))

/-- `L <type> <value> E`, `L <string type> E`, `L <mangled-name> E`, `L Dn E`, `L Dn 0 E` -/
def exprPrimary (r : Rules) : Parser Node := do
  expect "L" "literal"
  if ← consumeAny ["_Z", "Z"] then
    let encoding ← r.encoding
    expect "E" "external name"
    return .externalName encoding
  if ← consumeAny ["DnE", "Dn0E"] then return .nullptrLiteral
  let type ← r.type
  let start ← here
  literalOf start type (← takeUntil "E" "literal value")

end MangledNames.Grammar
