import MangledNames.Proofs.Grammar.Spelling
import MangledNames.Grammar.Expression
set_option autoImplicit false

/-!
Expressions spelled by the grammar. The types in them, and the template arguments of names, are
spelled along a table of substitutions.
-/

namespace MangledNames.Grammar

open Cursor

/-- The types of integer literals. -/
def isIntegerType : BuiltinType → Bool
  | .wchar | .char | .signedChar | .unsignedChar | .short | .unsignedShort | .int | .unsignedInt
  | .long | .unsignedLong | .longLong | .unsignedLongLong | .int128 | .unsignedInt128
  | .char32 | .char16 | .char8 => true
  | _ => false

def isLowerHexDigit (c : Char) : Bool := isDigit c || ('a' ≤ c && c ≤ 'f')

/-- A parameter of the function itself or of one around it, with qualifiers that do not matter. -/
inductive FunctionParamCode (number : Option Nat) : List Char → Prop
  | own (cv : CvQualifiers) : (∀ n ∈ number, n < 10 ^ numberDigitsMax) →
    FunctionParamCode number ('f' :: 'p' :: (cvCode cv ++ arrayBound number))
  | outer (level : Nat) (cv : CvQualifiers) : level < 10 ^ numberDigitsMax →
    (∀ n ∈ number, n < 10 ^ numberDigitsMax) →
    FunctionParamCode number
      ('f' :: 'L' :: (spelled 10 level ++ 'p' :: (cvCode cv ++ arrayBound number)))

/-- Access to a member by its name. -/
inductive AccessCode : MemberAccess → Code → Prop
  | dot : AccessCode .dot ('d','t')
  | arrow : AccessCode .arrow ('p','t')

/-- What is spelled: an expression or several, a literal, the initializer of a new object, a name
with its scope or without, an identifier or several with their arguments, what a scope starts with,
a name with the arguments that may follow it, and template arguments. -/
inductive Clause where
  | expression (node : Node)
  | expressions (nodes : List Node)
  | literal (node : Node)
  | initializer (elements : Option (List Node))
  | scoped (node : Node)
  | base (node : Node)
  | simpleId (node : Node)
  | simpleIds (nodes : List Node)
  | qualifier (node : Node)
  | applied (name node : Node)
  | arguments (nodes : List Node)

/-- `Expresses n table clause text table'`: with this table the text spells the clause, which nests
at most `n` levels deep, and leaves the other table. -/
inductive Expresses : Nat → Substitutions → Clause → List Char → Substitutions → Prop
  -- literals
  | bool {n : Nat} {table : Substitutions} (value : Bool) :
    Expresses (n + 2) table (.literal (.boolLiteral value))
      ['L','b',if value then '1' else '0','E'] table
  | nullptr {n : Nat} {table : Substitutions} {text : List Char} :
    text ∈ [['L','D','n','E'],['L','D','n','0','E']] →
    Expresses (n + 1) table (.literal .nullptrLiteral) text table
  | integer {n : Nat} {table : Substitutions} {type : BuiltinType} {code digits : List Char}
    (negative : Bool) : isIntegerType type = true → BuiltinCode type code → digits ≠ [] →
    (∀ c ∈ digits, isDigit c = true) →
    Expresses (n + 2) table (.literal (.integerLiteral (.builtinType type)
        (String.ofList ((if negative then ['-'] else []) ++ digits))))
      ('L' :: (code ++ ((if negative then ['n'] else []) ++ (digits ++ ['E'])))) table
  | float {n : Nat} {table : Substitutions} {type : BuiltinType} {code digits : List Char} :
    type ∈ [.float,.double] → BuiltinCode type code → digits ≠ [] →
    (∀ c ∈ digits, isLowerHexDigit c = true) →
    Expresses (n + 2) table (.literal (.floatLiteral (.builtinType type) (String.ofList digits)))
      ('L' :: (code ++ (digits ++ ['E']))) table
  -- expressions
  | literal {n : Nat} {table table' : Substitutions} {text : List Char} {node : Node} :
    Expresses n table (.literal node) text table' →
    Expresses (n + 1) table (.expression node) text table'
  | templateParam {n : Nat} {table : Substitutions} {i : Nat} : i ≤ 10 ^ numberDigitsMax →
    Expresses (n + 1) table (.expression (.templateParam i)) (templateParamCode i) table
  | functionParam {n : Nat} {table : Substitutions} {number : Option Nat} {text : List Char} :
    FunctionParamCode number text →
    Expresses (n + 1) table (.expression (.functionParam number)) text table
  | unary {n : Nat} {table table' : Substitutions} {text : List Char} {operator : Operator}
    {operand : Node} : operator.kind = .prefixOp →
    Expresses n table (.expression operand) text table' →
    Expresses (n + 1) table (.expression (.unaryExpression operator operand false))
      (operator.code.1 :: operator.code.2 :: text) table'
  | afterOperand {n : Nat} {table table' : Substitutions} {text : List Char} {operator : Operator}
    {operand : Node} : operator.kind = .postfixOp →
    Expresses n table (.expression operand) text table' →
    Expresses (n + 1) table (.expression (.unaryExpression operator operand true))
      (operator.code.1 :: operator.code.2 :: text) table'
  | beforeOperand {n : Nat} {table table' : Substitutions} {text : List Char} {operator : Operator}
    {operand : Node} : operator.kind = .postfixOp →
    Expresses n table (.expression operand) text table' →
    Expresses (n + 1) table (.expression (.unaryExpression operator operand false))
      (operator.code.1 :: operator.code.2 :: '_' :: text) table'
  | binary {n : Nat} {table table' table'' : Substitutions} {text text' : List Char}
    {operator : Operator} {left right : Node} : operator.kind ∈ [.binary,.index] →
    Expresses n table (.expression left) text table' →
    Expresses n table' (.expression right) text' table'' →
    Expresses (n + 1) table (.expression (.binaryExpression operator left right))
      (operator.code.1 :: operator.code.2 :: (text ++ text')) table''
  | conditional {n : Nat} {table table₁ table₂ table₃ : Substitutions}
    {text text' text'' : List Char}
    {condition whenTrue whenFalse : Node} : Expresses n table (.expression condition) text table₁ →
    Expresses n table₁ (.expression whenTrue) text' table₂ →
    Expresses n table₂ (.expression whenFalse) text'' table₃ →
    Expresses (n + 1) table (.expression (.conditionalExpression condition whenTrue whenFalse))
      ('q' :: 'u' :: (text ++ (text' ++ text''))) table₃
  | call {n : Nat} {table table' table'' : Substitutions} {text text' : List Char} {callee : Node}
    {arguments : List Node} : Expresses n table (.expression callee) text table' →
    Expresses n table' (.expressions arguments) text' table'' →
    Expresses (n + 1) table (.expression (.callExpression callee arguments))
      ('c' :: 'l' :: (text ++ (text' ++ ['E']))) table''
  | cast {n : Nat} {table table' table'' : Substitutions} {text text' : List Char} {code : Code}
    {keyword : CastKeyword} {type operand : Node} : CastKeyword.ofCode? code = some keyword →
    Spells n table (.type type) text table' →
      Expresses n table' (.expression operand) text' table'' →
    Expresses (n + 1) table (.expression (.castExpression keyword type operand))
      (code.1 :: code.2 :: (text ++ text')) table''
  | conversion {n : Nat} {table table' table'' : Substitutions} {text text' : List Char}
    {type operand : Node} : Spells n table (.type type) text table' →
    Expresses n table' (.expression operand) text' table'' →
    Expresses (n + 1) table (.expression (.conversionExpression type [operand]))
      ('c' :: 'v' :: (text ++ text')) table''
  | conversionOfList {n : Nat} {table table' table'' : Substitutions} {text text' : List Char}
    {type : Node} {operands : List Node} : Spells n table (.type type) text table' →
    Expresses n table' (.expressions operands) text' table'' →
    Expresses (n + 1) table (.expression (.conversionExpression type operands))
      ('c' :: 'v' :: (text ++ '_' :: (text' ++ ['E']))) table''
  | initList {n : Nat} {table table' : Substitutions} {text : List Char} {elements : List Node} :
    Expresses n table (.expressions elements) text table' →
    Expresses (n + 1) table (.expression (.initListExpression none elements))
      ('i' :: 'l' :: (text ++ ['E'])) table'
  | typedInitList {n : Nat} {table table' table'' : Substitutions} {text text' : List Char}
    {type : Node} {elements : List Node} : Spells n table (.type type) text table' →
    Expresses n table' (.expressions elements) text' table'' →
    Expresses (n + 1) table (.expression (.initListExpression (some type) elements))
      ('t' :: 'l' :: (text ++ (text' ++ ['E']))) table''
  | new {n : Nat} {table table₁ table₂ table₃ : Substitutions} {text text' text'' : List Char}
    {placement : List Node} {type : Node} {initializer : Option (List Node)}
    (array globalScope : Bool) : Expresses n table (.expressions placement) text table₁ →
    Spells n table₁ (.type type) text' table₂ →
    Expresses n table₂ (.initializer initializer) text'' table₃ →
    Expresses (n + 1) table
      (.expression (.newExpression placement type initializer array globalScope))
      ((if globalScope then ['g','s'] else []) ++
        'n' :: (if array then 'a' else 'w') :: (text ++ '_' :: (text' ++ text''))) table₃
  | delete {n : Nat} {table table' : Substitutions} {text : List Char} {operand : Node}
    (array globalScope : Bool) : Expresses n table (.expression operand) text table' →
    Expresses (n + 1) table (.expression (.deleteExpression operand array globalScope))
      ((if globalScope then ['g','s'] else []) ++
        'd' :: (if array then 'a' else 'l') :: text) table'
  | typeOperator {n : Nat} {table table' : Substitutions} {text : List Char} {code : Code}
    {operator : TypeOperator} {type : Node} : TypeOperator.ofCode? code = some operator →
    Spells n table (.type type) text table' →
    Expresses (n + 1) table (.expression (.typeOperatorExpression operator type))
      (code.1 :: code.2 :: text) table'
  | expressionOperator {n : Nat} {table table' : Substitutions} {text : List Char} {code : Code}
    {operator : ExpressionOperator} {operand : Node} :
    ExpressionOperator.ofCode? code = some operator →
    Expresses n table (.expression operand) text table' →
    Expresses (n + 1) table (.expression (.expressionOperatorExpression operator operand))
      (code.1 :: code.2 :: text) table'
  | sizeofTemplateParam {n : Nat} {table : Substitutions} {i : Nat} : i ≤ 10 ^ numberDigitsMax →
    Expresses (n + 1) table (.expression (.sizeofPackExpression (.templateParam i)))
      ('s' :: 'Z' :: templateParamCode i) table
  | sizeofFunctionParam {n : Nat} {table : Substitutions} {number : Option Nat} {text : List Char} :
    FunctionParamCode number text →
    Expresses (n + 1) table (.expression (.sizeofPackExpression (.functionParam number)))
      ('s' :: 'Z' :: text) table
  | member {n : Nat} {table table' table'' : Substitutions} {text text' : List Char} {code : Code}
    {access : MemberAccess} {object name : Node} : AccessCode access code →
    Expresses (n + 1) table (.expression object) text table' →
    Expresses n table' (.scoped name) text' table'' →
    Expresses (n + 2) table
      (.expression (.memberExpression object access (.unresolvedName name false)))
      (code.1 :: code.2 :: (text ++ text')) table''
  | memberPointer {n : Nat} {table table' table'' : Substitutions} {text text' : List Char}
    {object member : Node} : Expresses n table (.expression object) text table' →
    Expresses n table' (.expression member) text' table'' →
    Expresses (n + 1) table (.expression (.memberExpression object .dotStar member))
      ('d' :: 's' :: (text ++ text')) table''
  | packExpansion {n : Nat} {table table' : Substitutions} {text : List Char} {pattern : Node} :
    Expresses n table (.expression pattern) text table' →
    Expresses (n + 1) table (.expression (.packExpansionExpression pattern))
      ('s' :: 'p' :: text) table'
  | throw {n : Nat} {table table' : Substitutions} {text : List Char} {operand : Node} :
    Expresses n table (.expression operand) text table' →
    Expresses (n + 1) table (.expression (.throwExpression (some operand)))
      ('t' :: 'w' :: text) table'
  | rethrow {n : Nat} {table : Substitutions} :
    Expresses (n + 1) table (.expression (.throwExpression none)) ['t','r'] table
  | unresolved {n : Nat} {table table' : Substitutions} {text : List Char} {name : Node}
    (globalScope : Bool) : Expresses n table (.scoped name) text table' →
    Expresses (n + 2) table (.expression (.unresolvedName name globalScope))
      ((if globalScope then ['g','s'] else []) ++ text) table'
  | noExpressions {n : Nat} {table : Substitutions} : Expresses n table (.expressions []) [] table
  | moreExpressions {n : Nat} {table table' table'' : Substitutions} {text text' : List Char}
    {node : Node} {nodes : List Node} : Expresses n table (.expression node) text table' →
    Expresses n table' (.expressions nodes) text' table'' →
    Expresses n table (.expressions (node :: nodes)) (text ++ text') table''
  | noInitializer {n : Nat} {table : Substitutions} :
    Expresses n table (.initializer none) ['E'] table
  | initializer {n : Nat} {table table' : Substitutions} {text : List Char} {elements : List Node} :
    Expresses n table (.expressions elements) text table' →
    Expresses n table (.initializer (some elements)) ('p' :: 'i' :: (text ++ ['E'])) table'
  | braces {n : Nat} {table table' : Substitutions} {text : List Char} {elements : List Node} :
    Expresses n table (.expressions elements) text table' →
    Expresses (n + 1) table (.initializer (some [.initListExpression none elements]))
      ('i' :: 'l' :: (text ++ ['E'])) table'
  -- names
  | unscoped {n : Nat} {table table' : Substitutions} {text : List Char} {node : Node} :
    Expresses n table (.base node) text table' → Expresses n table (.scoped node) text table'
  | inType {n : Nat} {table table' table'' : Substitutions} {text text' : List Char}
    {qualifier node : Node} : Expresses n table (.qualifier qualifier) text table' →
    Expresses n table' (.base node) text' table'' →
    Expresses n table (.scoped (.nestedName qualifier node)) ('s' :: 'r' :: (text ++ text')) table''
  | inTypeLevels {n : Nat} {table table₁ table₂ table₃ : Substitutions}
    {text text' text'' : List Char} {qualifier node : Node} {levels : List Node} :
      Expresses n table (.qualifier qualifier) text table₁ →
    Expresses n table₁ (.simpleIds levels) text' table₂ →
    Expresses n table₂ (.base node) text'' table₃ →
    Expresses n table (.scoped (.nestedName (levels.foldl .nestedName qualifier) node))
      ('s' :: 'r' :: 'N' :: (text ++ (text' ++ 'E' :: text''))) table₃
  | inLevels {n : Nat} {table table₁ table₂ table₃ : Substitutions} {text text' text'' : List Char}
    {level node : Node} {levels : List Node} : Expresses n table (.simpleId level) text table₁ →
    Expresses n table₁ (.simpleIds levels) text' table₂ →
    Expresses n table₂ (.base node) text'' table₃ →
    Expresses n table (.scoped (.nestedName (levels.foldl .nestedName level) node))
      ('s' :: 'r' :: (text ++ (text' ++ 'E' :: text''))) table₃
  | identifier {n : Nat} {table table' : Substitutions} {text : List Char} {node : Node} :
    Expresses n table (.simpleId node) text table' → Expresses n table (.base node) text table'
  | operator {n : Nat} {table table' : Substitutions} {text : List Char} {operator : Operator}
    {node : Node} : Expresses n table (.applied (.operatorName operator) node) text table' →
    Expresses n table (.base node) ('o' :: 'n' :: operator.code.1 :: operator.code.2 :: text) table'
  | destructor {n : Nat} {table table' : Substitutions} {text : List Char} {node : Node} :
    Expresses n table (.simpleId node) text table' →
    Expresses n table (.base (.destructorName node)) ('d' :: 'n' :: text) table'
  | paramDestructor {n : Nat} {table : Substitutions} {i : Nat} : i ≤ 10 ^ numberDigitsMax →
    Expresses n table (.base (.destructorName (.templateParam i)))
      ('d' :: 'n' :: templateParamCode i) (table.append (.templateParam i))
  | referredDestructor {n : Nat} {table : Substitutions} {node : Node} {i : Nat} :
    table.entries[i]? = some node →
    Expresses n table (.base (.destructorName node)) ('d' :: 'n' :: backReference i) table
  | simpleId {n : Nat} {table table' : Substitutions} {text : List Char} {name : String}
    {node : Node} :
    Identifier name → Expresses n table (.applied (.sourceName name) node) text table' →
    Expresses n table (.simpleId node) (identifierCode name ++ text) table'
  | noSimpleIds {n : Nat} {table : Substitutions} : Expresses n table (.simpleIds []) [] table
  | moreSimpleIds {n : Nat} {table table' table'' : Substitutions} {text text' : List Char}
    {node : Node} {nodes : List Node} : Expresses n table (.simpleId node) text table' →
    Expresses n table' (.simpleIds nodes) text' table'' →
    Expresses n table (.simpleIds (node :: nodes)) (text ++ text') table''
  | paramQualifier {n : Nat} {table table' : Substitutions} {text : List Char} {i : Nat}
    {node : Node} :
    i ≤ 10 ^ numberDigitsMax →
    Expresses n (table.append (.templateParam i)) (.applied (.templateParam i) node) text table' →
    Expresses n table (.qualifier node) (templateParamCode i ++ text) table'
  | referredQualifier {n : Nat} {table table' : Substitutions} {text : List Char} {i : Nat}
    {name node : Node} : table.entries[i]? = some name →
    Expresses n table (.applied name node) text table' →
    Expresses n table (.qualifier node) (backReference i ++ text) table'
  | bare {n : Nat} {table : Substitutions} {name : Node} :
    Expresses n table (.applied name name) [] table
  | applied {n : Nat} {table table' : Substitutions} {text : List Char} {name : Node}
    {arguments : List Node} : Expresses n table (.arguments arguments) text table' →
    Expresses (n + 1) table (.applied name (.templateName name arguments))
      ('I' :: (text ++ ['E'])) table'
  | noArguments {n : Nat} {table : Substitutions} : Expresses n table (.arguments []) [] table
  | typeArgument {n : Nat} {table table' table'' : Substitutions} {text text' : List Char}
    {type : Node} {arguments : List Node} : Spells n table (.type type) text table' →
    Expresses (n + 1) table' (.arguments arguments) text' table'' →
    Expresses (n + 1) table (.arguments (type :: arguments)) (text ++ text') table''
  | literalArgument {n : Nat} {table table' table'' : Substitutions} {text text' : List Char}
    {node : Node} {arguments : List Node} : Expresses n table (.literal node) text table' →
    Expresses (n + 1) table' (.arguments arguments) text' table'' →
    Expresses (n + 1) table (.arguments (node :: arguments)) (text ++ text') table''
  | expressionArgument {n : Nat} {table table' table'' : Substitutions} {text text' : List Char}
    {node : Node} {arguments : List Node} : Expresses n table (.expression node) text table' →
    Expresses (n + 1) table' (.arguments arguments) text' table'' →
    Expresses (n + 1) table (.arguments (node :: arguments)) ('X' :: (text ++ 'E' :: text')) table''

end MangledNames.Grammar
