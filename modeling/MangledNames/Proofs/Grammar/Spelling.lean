import MangledNames.Proofs.Numeral
import MangledNames.Substitutions
set_option autoImplicit false

/-!
Types spelled by the grammar, from left to right along a table of substitutions. Wherever an entry
of the table stands for a component, the component may be spelled in full or as a back reference.
-/

namespace MangledNames.Grammar

open Cursor

/-- What can be spelled after its length and printed as it is. Digits would run on from the
length. -/
structure Identifier (name : String) : Prop where
  ne_nil : name.toList ≠ []
  head : name.toList.head?.any isDigit = false
  proper : isAnonymousNamespace name.toList = false
  length_lt : name.toList.length < 10 ^ numberDigitsMax

/-- What can be spelled after its length, whatever it is printed as. -/
structure Nameable (name : String) : Prop where
  ne_nil : name.toList ≠ []
  head : name.toList.head?.any isDigit = false
  length_lt : name.toList.length < 10 ^ numberDigitsMax

theorem Identifier.nameable {name : String} (h : Identifier name) : Nameable name :=
  ⟨h.ne_nil,h.head,h.length_lt⟩

def properText (name : String) : String :=
  if isAnonymousNamespace name.toList then "(anonymous namespace)" else name

theorem Identifier.properText_eq {name : String} (h : Identifier name) :
    properText name = name := by
  rw [properText,h.proper]
  rfl

def identifierCode (name : String) : List Char := spelled 10 name.toList.length ++ name.toList

/-- `S_` for the first entry, then `S0_`, `S1_` and so on in base 36. -/
def backReference : Nat → List Char
  | 0 => ['S','_']
  | i + 1 => 'S' :: (spelled 36 i ++ ['_'])

/-- `T_` for the first parameter, then `T0_`, `T1_` and so on. -/
def templateParamCode : Nat → List Char
  | 0 => ['T','_']
  | i + 1 => 'T' :: (spelled 10 i ++ ['_'])

def cvCode (cv : CvQualifiers) : List Char :=
  (if cv.restrict then ['r'] else []) ++
    ((if cv.volatile then ['V'] else []) ++ if cv.const then ['K'] else [])

def refCode : Option ReferenceKind → List Char
  | none => []
  | some .lvalue => ['R']
  | some .rvalue => ['O']

/-- The qualifiers of a function type are its own. -/
def qualified (cv : CvQualifiers) : Node → Node
  | .functionType f => .functionType { f with cv := f.cv.union cv }
  | inner => .qualifiedType inner cv

inductive BuiltinCode : BuiltinType → List Char → Prop
  | letter {c : Char} {type : BuiltinType} : BuiltinType.ofLetter? c = some type →
    BuiltinCode type [c]
  | afterD {c : Char} {type : BuiltinType} : BuiltinType.ofLetterAfterD? c = some type →
    BuiltinCode type ['D',c]

/-- Types that are spelled as a code before one other type. -/
inductive Wrapping : List Char → (Node → Node) → Prop
  | pointer : Wrapping ['P'] .pointerType
  | lvalueReference : Wrapping ['R'] (.referenceType · .lvalue)
  | rvalueReference : Wrapping ['O'] (.referenceType · .rvalue)
  | complex : Wrapping ['C'] .complexType
  | imaginary : Wrapping ['G'] .imaginaryType
  | packExpansion : Wrapping ['D','p'] .packExpansion

def arrayBound : Option Nat → List Char
  | none => ['_']
  | some n => spelled 10 n ++ ['_']

def functionEnd : Option ReferenceKind → List Char
  | none => ['E']
  | some .lvalue => ['R','E']
  | some .rvalue => ['O','E']

/-- What is spelled: a type, types after each other, the scope of a nested name, and the exception
specification and the parameters of a function type. -/
inductive Phrase where
  | type (node : Node)
  | types (nodes : List Node)
  | scope (node : Node)
  | spec (spec : Option (ExceptionSpec Node))
  | parameters (nodes : List Node)

/-- `Spells n table phrase text table'`: with this table the text spells the phrase, which nests at
most `n` levels deep, and leaves the other table. Every type that is not builtin is appended once
it is complete, after its components; so is every scope of a nested name, and every name that
template arguments follow. A back reference appends nothing. -/
inductive Spells : Nat → Substitutions → Phrase → List Char → Substitutions → Prop
  | builtin {n : Nat} {table : Substitutions} {type : BuiltinType} {code : List Char} :
    BuiltinCode type code → Spells (n + 1) table (.type (.builtinType type)) code table
  | reference {n : Nat} {table : Substitutions} {node : Node} {i : Nat} :
    table.entries[i]? = some node → Spells (n + 1) table (.type node) (backReference i) table
  | templateParam {n : Nat} {table : Substitutions} {i : Nat} : i ≤ 10 ^ numberDigitsMax →
    Spells (n + 1) table (.type (.templateParam i)) (templateParamCode i)
      (table.append (.templateParam i))
  | wrapped {n : Nat} {table table' : Substitutions} {code text : List Char} {wrap : Node → Node}
    {inner : Node} : Wrapping code wrap → Spells n table (.type inner) text table' →
    Spells (n + 1) table (.type (wrap inner)) (code ++ text) (table'.append (wrap inner))
  /-- All qualifiers of a type stand together. -/
  | qualified {n : Nat} {table table' : Substitutions} {text : List Char} {inner : Node}
    {cv : CvQualifiers} : cv.isEmpty = false → Spells n table (.type inner) text table' →
    (∀ c ∈ text.head?, c ∉ ['r','V','K']) →
    Spells (n + 1) table (.type (qualified cv inner)) (cvCode cv ++ text)
      (table'.append (Grammar.qualified cv inner))
  | pointerToMember {n : Nat} {table table' table'' : Substitutions} {text text' : List Char}
    {classType memberType : Node} : Spells n table (.type classType) text table' →
    Spells n table' (.type memberType) text' table'' →
    Spells (n + 1) table (.type (.pointerToMemberType classType memberType))
      ('M' :: (text ++ text')) (table''.append (.pointerToMemberType classType memberType))
  | array {n : Nat} {table table' : Substitutions} {text : List Char} {element : Node}
    {bound : Option Nat} : (∀ size ∈ bound, size < 10 ^ numberDigitsMax) →
    Spells n table (.type element) text table' →
    Spells (n + 1) table (.type (.arrayType element (bound.map .size)))
      ('A' :: (arrayBound bound ++ text)) (table'.append (.arrayType element (bound.map .size)))
  | vector {n : Nat} {table table' : Substitutions} {text : List Char} {element : Node}
    {size : Nat} : size < 10 ^ numberDigitsMax → Spells n table (.type element) text table' →
    Spells (n + 1) table (.type (.vectorType element (.size size)))
      ('D' :: 'v' :: (spelled 10 size ++ '_' :: text))
      (table'.append (.vectorType element (.size size)))
  | function {n : Nat} {table table₁ table₂ table₃ : Substitutions}
    {specText returnText parameterText : List Char} {spec : Option (ExceptionSpec Node)}
    {returnType : Node} {parameters : List Node} (ref : Option ReferenceKind)
    (externC transactionSafe : Bool) : Spells n table (.spec spec) specText table₁ →
    Spells n table₁ (.type returnType) returnText table₂ →
    Spells n table₂ (.parameters parameters) parameterText table₃ →
    Spells (n + 1) table
      (.type (.functionType ⟨returnType,parameters,{},ref,spec,externC,transactionSafe⟩))
      (specText ++ ((if transactionSafe then ['D','x'] else []) ++ 'F' ::
        ((if externC then ['Y'] else []) ++ (returnText ++ (parameterText ++ functionEnd ref)))))
      (table₃.append (.functionType ⟨returnType,parameters,{},ref,spec,externC,transactionSafe⟩))
  | noSpec {n : Nat} {table : Substitutions} : Spells n table (.spec none) [] table
  | noexcept {n : Nat} {table : Substitutions} :
    Spells n table (.spec (some (.noexcept none))) ['D','o'] table
  | throwing {n : Nat} {table table' : Substitutions} {text : List Char} {types : List Node} :
    Spells n table (.types types) text table' →
    Spells n table (.spec (some (.throwing types))) ('D' :: 'w' :: (text ++ ['E'])) table'
  | noParameters {n : Nat} {table : Substitutions} : Spells n table (.parameters []) ['v'] table
  | parameters {n : Nat} {table table' : Substitutions} {text : List Char} {types : List Node} :
    types ≠ [] → (∀ type ∈ types, type ≠ .builtinType .void) →
    Spells n table (.types types) text table' → Spells n table (.parameters types) text table'
  | noTypes {n : Nat} {table : Substitutions} : Spells n table (.types []) [] table
  | moreTypes {n : Nat} {table table' table'' : Substitutions}
    {text text' : List Char} {type : Node}
    {types : List Node} : Spells n table (.type type) text table' →
    Spells n table' (.types types) text' table'' →
    Spells n table (.types (type :: types)) (text ++ text') table''
  /-- A class of one component, without and with template arguments. -/
  | className {n : Nat} {table : Substitutions} {name : String} : Identifier name →
    Spells (n + 3) table (.type (.sourceName name)) (identifierCode name)
      (table.append (.sourceName name))
  | template {n : Nat} {table table' : Substitutions} {text : List Char} {name : String}
    {arguments : List Node} : Identifier name →
    Spells n (table.append (.sourceName name)) (.types arguments) text table' →
    Spells (n + 4) table (.type (.templateName (.sourceName name) arguments))
      (identifierCode name ++ 'I' :: (text ++ ['E']))
      (table'.append (.templateName (.sourceName name) arguments))
  | referredTemplate {n : Nat} {table table' : Substitutions} {text : List Char} {name : Node}
    {i : Nat} {arguments : List Node} : table.entries[i]? = some name →
    Spells n table (.types arguments) text table' →
    Spells (n + 3) table (.type (.templateName name arguments))
      (backReference i ++ 'I' :: (text ++ ['E'])) (table'.append (.templateName name arguments))
  /-- A class in a scope, without and with template arguments. -/
  | nestedName {n : Nat} {table table' : Substitutions} {text : List Char} {scope : Node}
    {name : String} : Identifier name → Spells (n + 1) table (.scope scope) text table' →
    Spells (n + 4) table (.type (.nestedName scope (.sourceName name)))
      ('N' :: (text ++ (identifierCode name ++ ['E'])))
      (table'.append (.nestedName scope (.sourceName name)))
  | nestedTemplate {n : Nat} {table table' table'' : Substitutions} {text text' : List Char}
    {scope : Node} {arguments : List Node} : Spells (n + 2) table (.scope scope) text table' →
    Spells n table' (.types arguments) text' table'' →
    Spells (n + 5) table (.type (.templateName scope arguments))
      ('N' :: (text ++ 'I' :: (text' ++ ['E','E'])))
      (table''.append (.templateName scope arguments))
  | scopeName {n : Nat} {table : Substitutions} {name : String} : Identifier name →
    Spells (n + 1) table (.scope (.sourceName name)) (identifierCode name)
      (table.append (.sourceName name))
  | scopeReference {n : Nat} {table : Substitutions} {node : Node} {i : Nat} :
    table.entries[i]? = some node → Spells n table (.scope node) (backReference i) table
  | scopeMember {n : Nat} {table table' : Substitutions} {text : List Char} {scope : Node}
    {name : String} : Identifier name → Spells (n + 1) table (.scope scope) text table' →
    Spells (n + 1) table (.scope (.nestedName scope (.sourceName name)))
      (text ++ identifierCode name) (table'.append (.nestedName scope (.sourceName name)))
  | scopeTemplate {n : Nat} {table table' table'' : Substitutions} {text text' : List Char}
    {scope : Node} {arguments : List Node} : Spells (n + 2) table (.scope scope) text table' →
    Spells n table' (.types arguments) text' table'' →
    Spells (n + 2) table (.scope (.templateName scope arguments))
      (text ++ 'I' :: (text' ++ ['E'])) (table''.append (.templateName scope arguments))

end MangledNames.Grammar
