import MangledNames.Node
set_option autoImplicit false

/-!
Nodes seen from outside: the class of a node and its labelled fields, some of them nodes again.
Trees are shown, and searched for packs, through this view.
-/

namespace MangledNames

inductive Attribute where
  | absent
  | flag (value : Bool)
  | number (value : Int)
  | text (value : String)
  | texts (values : List String)
  | member (enumeration name value : String)
  | cv (value : CvQualifiers)
  | operator (value : Operator)
  | offsets (values : List CallOffset)
  deriving DecidableEq, Repr

inductive Field where
  | plain (value : Attribute)
  | child (node : Node)
  | children (nodes : List Node)

def Field.nodes : Field → List Node
  | plain _ => []
  | child node => [node]
  | children nodes => nodes

private def quoted (text : String) : String := "'" ++ text ++ "'"

namespace Attribute

def ofReferenceKind : Option ReferenceKind → Attribute
  | none => absent
  | some .lvalue => member "ReferenceKind" "LVALUE" "0"
  | some .rvalue => member "ReferenceKind" "RVALUE" "1"

def ofCtorDtorKind (kind : CtorDtorKind) : Attribute :=
  let name := match kind with
    | .completeCtor => "COMPLETE_CTOR"
    | .baseCtor => "BASE_CTOR"
    | .allocatingCtor => "ALLOCATING_CTOR"
    | .unifiedCtor => "UNIFIED_CTOR"
    | .comdatCtor => "COMDAT_CTOR"
    | .deletingDtor => "DELETING_DTOR"
    | .completeDtor => "COMPLETE_DTOR"
    | .baseDtor => "BASE_DTOR"
    | .unifiedDtor => "UNIFIED_DTOR"
    | .comdatDtor => "COMDAT_DTOR"
  member "CtorDtorKind" name (quoted kind.code.text)

def ofStandardName (standard : StandardName) : Attribute :=
  let name := match standard with
    | .allocator => "ALLOCATOR"
    | .basicString => "BASIC_STRING"
    | .string => "STRING"
    | .istream => "ISTREAM"
    | .ostream => "OSTREAM"
    | .iostream => "IOSTREAM"
  member "StdSubstitution" name (quoted (String.singleton standard.letter))

def ofSpecialNameKind (kind : SpecialNameKind) : Attribute :=
  let name := match kind with
    | .vtable => "VTABLE"
    | .vtt => "VTT"
    | .typeinfo => "TYPEINFO"
    | .typeinfoName => "TYPEINFO_NAME"
    | .tlsInit => "TLS_INIT"
    | .tlsWrapper => "TLS_WRAPPER"
    | .templateParamObject => "TEMPLATE_PARAM_OBJECT"
    | .guardVariable => "GUARD_VARIABLE"
    | .hiddenAlias => "HIDDEN_ALIAS"
    | .transactionClone => "TRANSACTION_CLONE"
    | .nonTransactionClone => "NON_TRANSACTION_CLONE"
    | .nonVirtualThunk => "NON_VIRTUAL_THUNK"
    | .virtualThunk => "VIRTUAL_THUNK"
    | .covariantThunk => "COVARIANT_THUNK"
  member "SpecialNameKind" name (quoted (String.ofList kind.code))

def ofOptionText : Option String → Attribute
  | none => absent
  | some value => text value

def ofOptionNumber : Option Nat → Attribute
  | none => absent
  | some value => number value

end Attribute

namespace Field

def flag (value : Bool) : Field := plain (.flag value)
def number (value : Nat) : Field := plain (.number value)
def text (value : String) : Field := plain (.text value)

def optional : Option Node → Field
  | none => plain .absent
  | some node => child node

def optionalList : Option (List Node) → Field
  | none => plain .absent
  | some nodes => children nodes

def arguments : Option (List Node) → Field
  | none => plain .absent
  | some nodes => child (.templateArgs nodes)

def dimension : Dimension Node → Field
  | .size n => number n
  | .expression e => child e

end Field

namespace Node

def label : Node → String
  | sourceName _ => "SourceName"
  | operatorName _ => "OperatorName"
  | conversionOperatorName _ => "ConversionOperatorName"
  | literalOperatorName _ => "LiteralOperatorName"
  | vendorOperatorName _ _ => "VendorOperatorName"
  | ctorDtorName _ _ _ => "CtorDtorName"
  | abiTaggedName _ _ => "AbiTaggedName"
  | unnamedTypeName _ => "UnnamedTypeName"
  | closureTypeName _ _ => "ClosureTypeName"
  | structuredBindingName _ => "StructuredBindingName"
  | nestedName _ _ => "NestedName"
  | templateName _ _ => "TemplateName"
  | localName _ _ => "LocalName"
  | stringLiteralName => "StringLiteralName"
  | specialSubstitution _ _ => "SpecialSubstitution"
  | unresolvedName _ _ => "UnresolvedName"
  | destructorName _ => "DestructorName"
  | builtinType _ => "BuiltinType"
  | vendorExtendedType _ _ => "VendorExtendedType"
  | qualifiedType _ _ => "QualifiedType"
  | vendorQualifiedType _ _ _ => "VendorQualifiedType"
  | pointerType _ => "PointerType"
  | referenceType _ _ => "ReferenceType"
  | complexType _ => "ComplexType"
  | imaginaryType _ => "ImaginaryType"
  | arrayType _ _ => "ArrayType"
  | pointerToMemberType _ _ => "PointerToMemberType"
  | functionType _ => "FunctionType"
  | exceptionSpec (.noexcept _) => "NoexceptSpec"
  | exceptionSpec (.throwing _) => "DynamicExceptionSpec"
  | templateParam _ => "TemplateParam"
  | packExpansion _ => "PackExpansion"
  | decltypeType _ => "DecltypeType"
  | vectorType _ _ => "VectorType"
  | elaboratedType _ _ => "ElaboratedType"
  | templateArgs _ => "TemplateArgs"
  | templateArgPack _ => "TemplateArgPack"
  | integerLiteral _ _ => "IntegerLiteral"
  | floatLiteral _ _ => "FloatLiteral"
  | boolLiteral _ => "BoolLiteral"
  | nullptrLiteral => "NullptrLiteral"
  | stringLiteral _ => "StringLiteral"
  | externalName _ => "ExternalName"
  | functionParam _ => "FunctionParam"
  | unaryExpression _ _ _ => "UnaryExpression"
  | binaryExpression _ _ _ => "BinaryExpression"
  | conditionalExpression _ _ _ => "ConditionalExpression"
  | callExpression _ _ => "CallExpression"
  | castExpression _ _ _ => "CastExpression"
  | conversionExpression _ _ => "ConversionExpression"
  | initListExpression _ _ => "InitListExpression"
  | newExpression _ _ _ _ _ => "NewExpression"
  | deleteExpression _ _ _ => "DeleteExpression"
  | typeOperatorExpression _ _ => "TypeOperatorExpression"
  | expressionOperatorExpression _ _ => "ExpressionOperatorExpression"
  | sizeofPackExpression _ => "SizeofPackExpression"
  | memberExpression _ _ _ => "MemberExpression"
  | throwExpression _ => "ThrowExpression"
  | packExpansionExpression _ => "PackExpansionExpression"
  | signature _ => "Signature"
  | encoding _ => "Encoding"
  | specialName _ _ _ => "SpecialName"
  | referenceTemporary _ _ => "ReferenceTemporary"
  | constructionVtable _ _ => "ConstructionVtable"
  | mangledName _ _ => "MangledName"

/-- The labelled fields of a node, in order. Lists of arguments, signatures and exception
specifications show as nodes of their own. -/
def fields : Node → List (String × Field)
  | sourceName value => [("value", .text value)]
  | operatorName operator => [("operator", .plain (.operator operator))]
  | conversionOperatorName type => [("type", .child type)]
  | literalOperatorName name => [("name", .child (sourceName name))]
  | vendorOperatorName arity name =>
    [("arity", .number arity), ("name", .child (sourceName name))]
  | ctorDtorName kind name inheriting =>
    [("kind", .plain (.ofCtorDtorKind kind)), ("name", .child name),
     ("inheriting", .optional inheriting)]
  | abiTaggedName name tags => [("name", .child name), ("tags", .plain (.texts tags))]
  | unnamedTypeName number => [("number", .number number)]
  | closureTypeName parameters number =>
    [("parameters", .children parameters), ("number", .number number)]
  | structuredBindingName names => [("names", .children (names.map sourceName))]
  | nestedName scope name => [("prefix", .child scope), ("name", .child name)]
  | templateName name arguments =>
    [("name", .child name), ("arguments", .child (templateArgs arguments))]
  | localName function entity =>
    [("encoding", .child (encoding function)), ("entity", .child entity)]
  | stringLiteralName => []
  | specialSubstitution name expanded =>
    [("kind", .plain (.ofStandardName name)), ("expanded", .flag expanded)]
  | unresolvedName name globalScope => [("name", .child name), ("global_scope", .flag globalScope)]
  | destructorName name => [("name", .child name)]
  | builtinType type => [("name", .text type.name)]
  | vendorExtendedType name arguments =>
    [("name", .text name), ("arguments", .arguments arguments)]
  | qualifiedType inner cv => [("inner", .child inner), ("cv", .plain (.cv cv))]
  | vendorQualifiedType inner qualifier arguments =>
    [("inner", .child inner), ("qualifier", .text qualifier), ("arguments", .arguments arguments)]
  | pointerType pointee => [("pointee", .child pointee)]
  | referenceType referent kind =>
    [("referent", .child referent), ("kind", .plain (.ofReferenceKind (some kind)))]
  | complexType inner => [("inner", .child inner)]
  | imaginaryType inner => [("inner", .child inner)]
  | arrayType element dimension =>
    [("element", .child element), ("dimension", match dimension with
      | none => .plain .absent
      | some dimension => .dimension dimension)]
  | pointerToMemberType classType memberType =>
    [("class_type", .child classType), ("member_type", .child memberType)]
  | functionType f =>
    [("return_type", .child f.returnType), ("parameters", .children f.parameters),
     ("cv", .plain (.cv f.cv)), ("ref", .plain (.ofReferenceKind f.ref)),
     ("exception_spec", .optional (f.exceptionSpec.map exceptionSpec)),
     ("extern_c", .flag f.externC), ("transaction_safe", .flag f.transactionSafe)]
  | exceptionSpec (.noexcept condition) => [("expression", .optional condition)]
  | exceptionSpec (.throwing types) => [("types", .children types)]
  | templateParam index => [("index", .number index)]
  | packExpansion pattern => [("pattern", .child pattern)]
  | decltypeType expression => [("expression", .child expression)]
  | vectorType element dimension =>
    [("element", .child element), ("dimension", .dimension dimension)]
  | elaboratedType keyword name => [("keyword", .text keyword.text), ("name", .child name)]
  | templateArgs arguments => [("arguments", .children arguments)]
  | templateArgPack arguments => [("arguments", .children arguments)]
  | integerLiteral type value => [("type", .child type), ("value", .text value)]
  | floatLiteral type value => [("type", .child type), ("value", .text value)]
  | boolLiteral value => [("value", .flag value)]
  | nullptrLiteral => []
  | stringLiteral type => [("type", .child type)]
  | externalName e => [("encoding", .child e)]
  | functionParam number => [("number", .plain (.ofOptionNumber number))]
  | unaryExpression operator operand afterOperand =>
    [("operator", .plain (.operator operator)), ("operand", .child operand),
     ("postfix", .flag afterOperand)]
  | binaryExpression operator left right =>
    [("operator", .plain (.operator operator)), ("left", .child left), ("right", .child right)]
  | conditionalExpression condition whenTrue whenFalse =>
    [("condition", .child condition), ("then", .child whenTrue), ("otherwise", .child whenFalse)]
  | callExpression callee arguments =>
    [("callee", .child callee), ("arguments", .children arguments)]
  | castExpression keyword type operand =>
    [("keyword", .text keyword.text), ("type", .child type), ("operand", .child operand)]
  | conversionExpression type arguments =>
    [("type", .child type), ("arguments", .children arguments)]
  | initListExpression type elements =>
    [("type", .optional type), ("elements", .children elements)]
  | newExpression placement type initializer array globalScope =>
    [("placement", .children placement), ("type", .child type),
     ("initializer", .optionalList initializer), ("array", .flag array),
     ("global_scope", .flag globalScope)]
  | deleteExpression operand array globalScope =>
    [("operand", .child operand), ("array", .flag array), ("global_scope", .flag globalScope)]
  | typeOperatorExpression operator type =>
    [("keyword", .text operator.text), ("type", .child type)]
  | expressionOperatorExpression operator operand =>
    [("keyword", .text operator.text), ("operand", .child operand)]
  | sizeofPackExpression pattern => [("pattern", .child pattern)]
  | memberExpression object access member =>
    [("object", .child object), ("operator", .text access.text), ("member", .child member)]
  | throwExpression operand => [("operand", .optional operand)]
  | packExpansionExpression pattern => [("pattern", .child pattern)]
  | signature s =>
    [("return_type", .optional s.returnType), ("parameters", .children s.parameters),
     ("cv", .plain (.cv s.cv)), ("ref", .plain (.ofReferenceKind s.ref))]
  | encoding e =>
    [("name", .child e.name), ("signature", .optional (e.signature.map signature))]
  | specialName kind target offsets =>
    [("kind", .plain (.ofSpecialNameKind kind)), ("target", .child target),
     ("offsets", .plain (.offsets offsets))]
  | referenceTemporary name n => [("name", .child name), ("number", .number n)]
  | constructionVtable complete base => [("complete", .child complete), ("base", .child base)]
  | mangledName e cloneSuffix =>
    [("encoding", .child e), ("clone_suffix", .plain (.ofOptionText cloneSuffix))]

def children (node : Node) : List Node := node.fields.flatMap fun (_, field) => field.nodes

end Node

end MangledNames
