import MangledNames.Qualifier
import MangledNames.Operator
import MangledNames.BuiltinType
import MangledNames.Keyword
import MangledNames.NameKind
set_option autoImplicit false

/-!
Trees of the mangling grammar: names, types, template arguments, expressions and encodings.
A node that the table of substitutions hands out again stands in the tree at each of its uses.
-/

namespace MangledNames

structure CallOffset where
  offset : Int
  virtualOffset : Option Int := none
  deriving DecidableEq, Repr

inductive Dimension (α : Type) where
  | size (n : Nat)
  | expression (e : α)
  deriving DecidableEq, Repr

/-- What follows the name of a function. Only template functions carry their return type. -/
structure Signature (α : Type) where
  returnType : Option α
  parameters : List α
  cv : CvQualifiers := {}
  ref : Option ReferenceKind := none
  deriving DecidableEq, Repr

structure Encoding (α : Type) where
  name : α
  signature : Option (Signature α)
  deriving DecidableEq, Repr

inductive ExceptionSpec (α : Type) where
  | noexcept (condition : Option α)
  | throwing (types : List α)
  deriving DecidableEq, Repr

structure FunctionType (α : Type) where
  returnType : α
  parameters : List α
  cv : CvQualifiers := {}
  ref : Option ReferenceKind := none
  exceptionSpec : Option (ExceptionSpec α) := none
  externC : Bool := false
  transactionSafe : Bool := false
  deriving DecidableEq, Repr

inductive Node where
  | sourceName (value : String)
  | operatorName (operator : Operator)
  | conversionOperatorName (type : Node)
  | literalOperatorName (name : String)
  | vendorOperatorName (arity : Nat) (name : String)
  /-- `name` is the class without scope and template arguments, `inheriting` the base class whose
  constructors are taken over. -/
  | ctorDtorName (kind : CtorDtorKind) (name : Node) (inheriting : Option Node)
  | abiTaggedName (name : Node) (tags : List String)
  | unnamedTypeName (number : Nat)
  | closureTypeName (parameters : List Node) (number : Nat)
  | structuredBindingName (names : List String)
  | nestedName (scope name : Node)
  | templateName (name : Node) (arguments : List Node)
  | localName (function : Encoding Node) (entity : Node)
  | stringLiteralName
  | specialSubstitution (name : StandardName) (expanded : Bool)
  | unresolvedName (name : Node) (globalScope : Bool)
  | destructorName (name : Node)
  | builtinType (type : BuiltinType)
  | vendorExtendedType (name : String) (arguments : Option (List Node))
  | qualifiedType (inner : Node) (cv : CvQualifiers)
  | vendorQualifiedType (inner : Node) (qualifier : String) (arguments : Option (List Node))
  | pointerType (pointee : Node)
  | referenceType (referent : Node) (kind : ReferenceKind)
  | complexType (inner : Node)
  | imaginaryType (inner : Node)
  | arrayType (element : Node) (dimension : Option (Dimension Node))
  | pointerToMemberType (classType memberType : Node)
  | functionType (function : FunctionType Node)
  | exceptionSpec (spec : ExceptionSpec Node)
  | templateParam (index : Nat)
  | packExpansion (pattern : Node)
  | decltypeType (expression : Node)
  | vectorType (element : Node) (dimension : Dimension Node)
  | elaboratedType (keyword : ElaboratedKeyword) (name : Node)
  | templateArgs (arguments : List Node)
  | templateArgPack (arguments : List Node)
  | integerLiteral (type : Node) (value : String)
  /-- `value` holds the digits of the representation, most significant first. -/
  | floatLiteral (type : Node) (value : String)
  | boolLiteral (value : Bool)
  | nullptrLiteral
  | stringLiteral (type : Node)
  | externalName (encoding : Node)
  | functionParam (number : Option Nat)
  | unaryExpression (operator : Operator) (operand : Node) (afterOperand : Bool)
  | binaryExpression (operator : Operator) (left right : Node)
  | conditionalExpression (condition whenTrue whenFalse : Node)
  | callExpression (callee : Node) (arguments : List Node)
  | castExpression (keyword : CastKeyword) (type operand : Node)
  | conversionExpression (type : Node) (arguments : List Node)
  | initListExpression (type : Option Node) (elements : List Node)
  | newExpression (placement : List Node) (type : Node) (initializer : Option (List Node))
      (array globalScope : Bool)
  | deleteExpression (operand : Node) (array globalScope : Bool)
  | typeOperatorExpression (operator : TypeOperator) (type : Node)
  | expressionOperatorExpression (operator : ExpressionOperator) (operand : Node)
  | sizeofPackExpression (pattern : Node)
  | memberExpression (object : Node) (access : MemberAccess) (member : Node)
  | throwExpression (operand : Option Node)
  | packExpansionExpression (pattern : Node)
  | signature (signature : Signature Node)
  | encoding (encoding : Encoding Node)
  | specialName (kind : SpecialNameKind) (target : Node) (offsets : List CallOffset)
  | referenceTemporary (name : Node) (number : Nat)
  | constructionVtable (complete base : Node)
  | mangledName (encoding : Node) (cloneSuffix : Option String)

namespace Node

def std : Node := sourceName "std"

def className : Node → Node
  | nestedName _ name => name.className
  | templateName name _ => name.className
  | abiTaggedName name _ => name.className
  | specialSubstitution name _ => sourceName name.className
  | node => node

def isDecimal (value : String) : Bool :=
  let digits := match value.toList with
    | '-' :: digits => digits
    | digits => digits
  !digits.isEmpty && digits.all Char.isDigit

/-- What every node promises of its own fields. -/
def wellFormed : Node → Bool
  | sourceName value => !value.isEmpty
  | vendorOperatorName arity _ => arity ≤ 9
  | ctorDtorName kind _ inheriting => inheriting.isNone || !kind.isDestructor
  | abiTaggedName _ tags => !tags.isEmpty
  | unnamedTypeName number => 1 ≤ number
  | closureTypeName _ number => 1 ≤ number
  | structuredBindingName names => !names.isEmpty
  | qualifiedType _ cv => !cv.isEmpty
  | integerLiteral _ value => isDecimal value
  | specialName kind _ offsets => offsets.length == kind.offsetCount
  | mangledName _ (some suffix) => suffix.toList.head? == some '.'
  | _ => true

end Node

end MangledNames
