import MangledNames.Printing.Scope
import MangledNames.Printing.Literal
set_option autoImplicit false

/-!
Nodes in two halves. What a declarator declares stands between the halves of its type, so that
pointers to functions and arrays come out as `void (*)(int)` and `int (&) [3]`. Nodes that are no
types have everything in their left half.
-/

namespace MangledNames.Printing

/-- The two halves of nodes one level further in. -/
structure Halves where
  left (place : Place) (node : Node) : Printer Unit
  right (place : Place) (node : Node) : Printer Unit

namespace Halves

def print (h : Halves) (place : Place) (node : Node) : Printer Unit := do
  h.left place node
  h.right place node

def printList (h : Halves) (place : Place) (nodes : List Node) : Printer Unit :=
  list (h.print place) nodes

def parenthesized (h : Halves) (place : Place) (node : Node) : Printer Unit := do
  write "("
  h.print place node
  write ")"

end Halves

/-- Template arguments in angle brackets, of which closing ones may have to stand apart. -/
def templateArgs (config : Config) (h : Halves) (place : Place) (arguments : List Node) :
    Printer Unit := do
  write "<"
  h.printList place arguments
  if config.closingAngleSpace && (← last) == some '>' then write " "
  write ">"

def optionalTemplateArgs (config : Config) (h : Halves) (place : Place) :
    Option (List Node) → Printer Unit
  | none => pure ()
  | some arguments => templateArgs config h place arguments

def cvQualifiers (cv : CvQualifiers) : Printer Unit := do
  if cv.const then write " const"
  if cv.volatile then write " volatile"
  if cv.restrict then write " restrict"

def refQualifier : Option ReferenceKind → Printer Unit
  | none => pure ()
  | some kind => write (" " ++ kind.sign)

def indirectionLeft (h : Halves) (place : Place) (target : Node) (sign : String) :
    Printer Unit := do
  h.left place target
  if ← ofExcept (hasArray place target) then write " "
  if ← ofExcept (needsParentheses place target) then write "("
  write sign

def indirectionRight (h : Halves) (place : Place) (target : Node) : Printer Unit := do
  if ← ofExcept (needsParentheses place target) then write ")"
  h.right place target

def exceptionSpec (h : Halves) (place : Place) : Option (ExceptionSpec Node) → Printer Unit
  | none => pure ()
  | some (.noexcept none) => write " noexcept"
  | some (.noexcept (some condition)) => do
    write " noexcept"
    h.parenthesized place condition
  | some (.throwing types) => do
    write " throw("
    h.printList place types
    write ")"

def functionTypeRight (h : Halves) (place : Place) (f : FunctionType Node) : Printer Unit := do
  write "("
  h.printList place f.parameters
  write ")"
  h.right place f.returnType
  cvQualifiers f.cv
  refQualifier f.ref
  exceptionSpec h place f.exceptionSpec
  if f.transactionSafe then write " transaction_safe"

/-- A half of what a template parameter stands for; the parameters of a closure are `auto`. -/
def templateParam (half : Place → Node → Printer Unit) (auto : Nat → Printer Unit) (place : Place)
    (index : Nat) : Printer Unit := do
  if place.inClosure && (place.argument? index).isNone then auto index
  else
    let (argument, scopes) ← ofExcept (resolve place index)
    half { place with scopes := scopes, packIndex := none } argument

def packElements (h : Halves) (place : Place) (pattern : Node) : Nat → Nat → Printer Unit
  | 0, _ => pure ()
  | count + 1, index => do
    if index ≠ 0 then write ", "
    h.print { place with packIndex := some index } pattern
    packElements h place pattern count (index + 1)

/-- A pattern for each element of the packs in it. With no pack in scope it stays a pattern. -/
def packExpansion (config : Config) (h : Halves) (place : Place) (pattern : Node) :
    Printer Unit := do
  match ← packSize config place pattern with
  | none =>
    h.parenthesized place pattern
    write "..."
  | some size => packElements h place pattern size 0

def function (config : Config) (h : Halves) (place : Place) (name : Node)
    (signature : Signature Node) : Printer Unit := do
  let returnType := if config.omitReturnType then none else signature.returnType
  if let some type := returnType then
    h.left place type
    unless ← hasRightSide config place type do write " "
  h.print place name
  unless config.omitParameterList do
    write "("
    h.printList place signature.parameters
    write ")"
  if let some type := returnType then h.right place type
  unless config.omitParameterList do
    cvQualifiers signature.cv
    refQualifier signature.ref

/-- A function or data. The parameters of templates refer to the arguments in its name. -/
def encoding (config : Config) (h : Halves) (place : Place) (e : Encoding Node) : Printer Unit :=
  let place := place.enter (templateArgsOf e.name)
  match e.signature with
  | none => h.print place e.name
  | some signature => function config h place e.name signature

def closure (h : Halves) (place : Place) (parameters : List Node) (number : Nat) :
    Printer Unit := do
  write "\x7blambda("
  h.printList { place with inClosure := true } parameters
  write (")#" ++ toString number ++ "\x7d")

/-- A comparison by `>` stands in parentheses, or it would close a list of arguments. -/
def binaryExpression (h : Halves) (place : Place) (operator : Operator) (left right : Node) :
    Printer Unit := do
  if operator.kind = .index then
    h.parenthesized place left
    write "["
    h.print place right
    write "]"
  else
    if operator = .greater then write "("
    h.parenthesized place left
    write (" " ++ operator.symbol ++ " ")
    h.parenthesized place right
    if operator = .greater then write ")"

def newExpression (h : Halves) (place : Place) (placement : List Node) (type : Node)
    (initializer : Option (List Node)) (array globalScope : Bool) : Printer Unit := do
  if globalScope then write "::"
  write (if array then "new[]" else "new")
  unless placement.isEmpty do
    write " ("
    h.printList place placement
    write ")"
  write " "
  h.print place type
  if let some initializer := initializer then
    write "("
    h.printList place initializer
    write ")"

def integerLiteral (config : Config) (h : Halves) (place : Place) (type : Node) (value : String) :
    Printer Unit := do
  match integerSuffix? type with
  | some suffix => write (value ++ cased config suffix)
  | none =>
    h.parenthesized place type
    write value

def floatLiteral (config : Config) (h : Halves) (place : Place) (type : Node) (value : String) :
    Printer Unit := do
  match numberFormat? type value with
  | some (format, suffix) =>
    match HexFloat.bitsOf? value.toList with
    | some bits => write (cased config (String.ofList (HexFloat.text format bits) ++ suffix))
    | none => throw (.broken .digitsHexadecimal)
  | none =>
    -- other widths stay as they are encoded
    h.parenthesized place type
    write ("[" ++ value ++ "]")

def abiTags : List String → Printer Unit
  | [] => pure ()
  | tag :: tags => do
    write ("[abi:" ++ tag ++ "]")
    abiTags tags

def dimension (h : Halves) (place : Place) : Dimension Node → Printer Unit
  | .size n => write (toString n)
  | .expression e => h.print place e

/-- The left half of a node, over the halves one level further in. -/
def leftHalf (config : Config) (h : Halves) (place : Place) : Node → Printer Unit
  | .mangledName encoding cloneSuffix => do
    h.print place encoding
    if let some suffix := cloneSuffix then write (" (" ++ suffix ++ ")")
  | .encoding e => encoding config h place e
  | .specialName kind target _ => do
    write kind.description
    h.print place target
  | .referenceTemporary name number => do
    write ("reference temporary #" ++ toString number ++ " for ")
    h.print place name
  | .constructionVtable complete base => do
    write "construction vtable for "
    h.print place base
    write "-in-"
    h.print place complete
  | .sourceName value => write value
  | .nestedName scope name => do
    h.print place scope
    write "::"
    h.print place name
  | .templateName name arguments => do
    h.print place name
    templateArgs config h place arguments
  | .operatorName operator =>
    write (if operator.isWord then "operator " ++ operator.symbol
      else "operator" ++ operator.symbol)
  | .conversionOperatorName type => do
    write "operator "
    h.print place type
  | .literalOperatorName name => do
    write "operator\"\" "
    h.print place (.sourceName name)
  | .vendorOperatorName _ name => do
    write "operator "
    h.print place (.sourceName name)
  | .ctorDtorName kind name _ => do
    if kind.isDestructor then write "~"
    h.print place name
  | .abiTaggedName name tags => do
    h.print place name
    abiTags tags
  | .unnamedTypeName number => write ("\x7bunnamed type#" ++ toString number ++ "\x7d")
  | .closureTypeName parameters number => closure h place parameters number
  | .structuredBindingName names => do
    write "["
    h.printList place (names.map .sourceName)
    write "]"
  | .localName function entity => do
    h.print place (.encoding function)
    write "::"
    h.print (place.enter (templateArgsOf function.name)) entity
  | .stringLiteralName => write "string literal"
  | .specialSubstitution name expanded =>
    write (if expanded then name.expandedText config.closingAngleSpace else name.text)
  | .unresolvedName name globalScope => do
    if globalScope then write "::"
    h.print place name
  | .destructorName name => do
    write "~"
    h.print place name
  | .builtinType type => write type.name
  | .vendorExtendedType name arguments => do
    write name
    optionalTemplateArgs config h place arguments
  | .qualifiedType inner cv => do
    h.left place inner
    cvQualifiers cv
  | .vendorQualifiedType inner qualifier arguments => do
    h.left place inner
    write (" " ++ qualifier)
    optionalTemplateArgs config h place arguments
  | .pointerType pointee => indirectionLeft h place pointee "*"
  | .referenceType referent kind => do
    let reference ← collapse config place referent kind
    indirectionLeft h { place with scopes := reference.scopes } reference.referent
      reference.kind.sign
  | .complexType inner => do
    h.left place inner
    write " _Complex"
  | .imaginaryType inner => do
    h.left place inner
    write " _Imaginary"
  | .arrayType element _ => h.left place element
  | .vectorType element bound => do
    h.print place element
    write " vector["
    dimension h place bound
    write "]"
  | .pointerToMemberType classType memberType => do
    h.left place memberType
    write (if ← ofExcept (needsParentheses place memberType) then "(" else " ")
    h.print place classType
    write "::*"
  | .functionType f => do
    h.left place f.returnType
    unless ← hasRightSide config place f.returnType do write " "
  | .templateParam index =>
    templateParam h.left (fun index => write ("auto:" ++ toString (index + 1))) place index
  | .packExpansion pattern => packExpansion config h place pattern
  | .decltypeType expression => do
    write "decltype("
    h.print place expression
    write ")"
  | .elaboratedType keyword name => do
    write (keyword.text ++ " ")
    h.print place name
  | .templateArgs arguments => templateArgs config h place arguments
  | .templateArgPack arguments => h.printList place arguments
  | .integerLiteral type value => integerLiteral config h place type value
  | .floatLiteral type value => floatLiteral config h place type value
  | .boolLiteral value => write (if value then "true" else "false")
  | .nullptrLiteral => write "nullptr"
  | .stringLiteral type => do
    write "\"<"
    h.print place type
    write ">\""
  | .externalName encoding => h.print place encoding
  | .functionParam none => write "fp"
  | .functionParam (some number) => write ("fp" ++ toString number)
  | .unaryExpression operator operand afterOperand => do
    if afterOperand then
      h.parenthesized place operand
      write operator.symbol
    else
      write operator.symbol
      h.parenthesized place operand
  | .binaryExpression operator left right => binaryExpression h place operator left right
  | .conditionalExpression condition whenTrue whenFalse => do
    h.parenthesized place condition
    write " ? "
    h.parenthesized place whenTrue
    write " : "
    h.parenthesized place whenFalse
  | .callExpression callee arguments => do
    h.print place callee
    write "("
    h.printList place arguments
    write ")"
  | .castExpression keyword type operand => do
    write (keyword.text ++ "<")
    h.print place type
    write ">"
    h.parenthesized place operand
  | .conversionExpression type arguments => do
    h.parenthesized place type
    write "("
    h.printList place arguments
    write ")"
  | .initListExpression type elements => do
    if let some type := type then h.print place type
    write "\x7b"
    h.printList place elements
    write "\x7d"
  | .newExpression placement type initializer array globalScope =>
    newExpression h place placement type initializer array globalScope
  | .deleteExpression operand array globalScope => do
    if globalScope then write "::"
    write (if array then "delete[] " else "delete ")
    h.print place operand
  | .typeOperatorExpression operator type => do
    write operator.text
    write " "
    h.parenthesized place type
  | .expressionOperatorExpression operator operand => do
    write operator.text
    write " "
    h.parenthesized place operand
  | .sizeofPackExpression pattern => do
    write "sizeof..."
    h.parenthesized place pattern
  | .memberExpression object access member => do
    h.print place object
    write access.text
    h.print place member
  | .throwExpression operand => do
    write "throw"
    if let some operand := operand then
      write " "
      h.print place operand
  | .packExpansionExpression pattern => packExpansion config h place pattern
  | .signature _ => throw (.broken .nodePrintable)
  | .exceptionSpec _ => throw (.broken .nodePrintable)

def rightHalf (config : Config) (h : Halves) (place : Place) : Node → Printer Unit
  | .qualifiedType inner _ => h.right place inner
  | .vendorQualifiedType inner _ _ => h.right place inner
  | .pointerType pointee => indirectionRight h place pointee
  | .referenceType referent kind => do
    let reference ← collapse config place referent kind
    indirectionRight h { place with scopes := reference.scopes } reference.referent
  | .arrayType element bound => do
    unless (← last) == some ']' do write " "
    write "["
    if let some bound := bound then dimension h place bound
    write "]"
    h.right place element
  | .pointerToMemberType _ memberType => do
    if ← ofExcept (needsParentheses place memberType) then write ")"
    h.right place memberType
  | .functionType f => functionTypeRight h place f
  | .templateParam index => templateParam h.right (fun _ => pure ()) place index
  | _ => pure ()

def Halves.exhausted (config : Config) : Halves where
  left _ _ := do
    step config
    fail (.recursionLimitExceeded config.recursionLimit)
  right _ _ := do
    step config
    fail (.recursionLimitExceeded config.recursionLimit)

def Halves.next (config : Config) (h : Halves) : Halves where
  left place node := do
    step config
    leftHalf config h place node
  right place node := do
    step config
    rightHalf config h place node

def Halves.levels (config : Config) : Nat → Halves
  | 0 => .exhausted config
  | n + 1 => (Halves.levels config n).next config

end MangledNames.Printing
