import MangledNames.Operator
set_option autoImplicit false

/-!
Kinds of names that a code selects: constructors and destructors, the abbreviated names of the
standard library, and the special names of tables, guards and thunks.
-/

namespace MangledNames

inductive CtorDtorKind where
  | completeCtor | baseCtor | allocatingCtor | unifiedCtor | comdatCtor
  | deletingDtor | completeDtor | baseDtor | unifiedDtor | comdatDtor
  deriving DecidableEq, Repr

namespace CtorDtorKind

def code : CtorDtorKind → Code
  | completeCtor => ('C', '1') | baseCtor => ('C', '2') | allocatingCtor => ('C', '3')
  | unifiedCtor => ('C', '4') | comdatCtor => ('C', '5')
  | deletingDtor => ('D', '0') | completeDtor => ('D', '1') | baseDtor => ('D', '2')
  | unifiedDtor => ('D', '4') | comdatDtor => ('D', '5')

def ofCode? : Code → Option CtorDtorKind
  | ('C', '1') => some completeCtor
  | ('C', '2') => some baseCtor
  | ('C', '3') => some allocatingCtor
  | ('C', '4') => some unifiedCtor
  | ('C', '5') => some comdatCtor
  | ('D', '0') => some deletingDtor
  | ('D', '1') => some completeDtor
  | ('D', '2') => some baseDtor
  | ('D', '4') => some unifiedDtor
  | ('D', '5') => some comdatDtor
  | _ => none

theorem ofCode?_code (k : CtorDtorKind) : ofCode? k.code = some k := by cases k <;> rfl

def isDestructor : CtorDtorKind → Bool
  | deletingDtor | completeDtor | baseDtor | unifiedDtor | comdatDtor => true
  | _ => false

end CtorDtorKind

inductive StandardName where
  | allocator
  | basicString
  | string
  | istream
  | ostream
  | iostream
  deriving DecidableEq, Repr

namespace StandardName

def letter : StandardName → Char
  | allocator => 'a'
  | basicString => 'b'
  | string => 's'
  | istream => 'i'
  | ostream => 'o'
  | iostream => 'd'

def ofLetter? : Char → Option StandardName
  | 'a' => some allocator
  | 'b' => some basicString
  | 's' => some string
  | 'i' => some istream
  | 'o' => some ostream
  | 'd' => some iostream
  | _ => none

def className : StandardName → String
  | allocator => "allocator"
  | basicString => "basic_string"
  | string => "basic_string"
  | istream => "basic_istream"
  | ostream => "basic_ostream"
  | iostream => "basic_iostream"

def text : StandardName → String
  | allocator => "std::allocator"
  | basicString => "std::basic_string"
  | string => "std::string"
  | istream => "std::istream"
  | ostream => "std::ostream"
  | iostream => "std::iostream"

/-- The spelling as the scope of a constructor or destructor, where a `typedef` has no place.
With `spaced` adjacent closing brackets stand apart. -/
def expandedText (spaced : Bool) : StandardName → String
  | allocator => "std::allocator"
  | basicString => "std::basic_string"
  | string =>
    if spaced then "std::basic_string<char, std::char_traits<char>, std::allocator<char> >"
    else "std::basic_string<char, std::char_traits<char>, std::allocator<char>>"
  | istream =>
    if spaced then "std::basic_istream<char, std::char_traits<char> >"
    else "std::basic_istream<char, std::char_traits<char>>"
  | ostream =>
    if spaced then "std::basic_ostream<char, std::char_traits<char> >"
    else "std::basic_ostream<char, std::char_traits<char>>"
  | iostream =>
    if spaced then "std::basic_iostream<char, std::char_traits<char> >"
    else "std::basic_iostream<char, std::char_traits<char>>"

end StandardName

inductive SpecialNameKind where
  | vtable | vtt | typeinfo | typeinfoName | tlsInit | tlsWrapper | templateParamObject
  | guardVariable | hiddenAlias | transactionClone | nonTransactionClone
  | nonVirtualThunk | virtualThunk | covariantThunk
  deriving DecidableEq, Repr

namespace SpecialNameKind

def code : SpecialNameKind → List Char
  | vtable => ['T', 'V'] | vtt => ['T', 'T']
  | typeinfo => ['T', 'I'] | typeinfoName => ['T', 'S']
  | tlsInit => ['T', 'H'] | tlsWrapper => ['T', 'W']
  | templateParamObject => ['T', 'A']
  | guardVariable => ['G', 'V'] | hiddenAlias => ['G', 'A']
  | transactionClone => ['G', 'T', 't'] | nonTransactionClone => ['G', 'T', 'n']
  | nonVirtualThunk => ['T', 'h'] | virtualThunk => ['T', 'v'] | covariantThunk => ['T', 'c']

def all : List SpecialNameKind :=
  [vtable, vtt, typeinfo, typeinfoName, tlsInit, tlsWrapper, templateParamObject,
   guardVariable, hiddenAlias, transactionClone, nonTransactionClone,
   nonVirtualThunk, virtualThunk, covariantThunk]

def ofText? (text : List Char) : Option SpecialNameKind :=
  all.find? fun kind => kind.code.isPrefixOf text

def description : SpecialNameKind → String
  | vtable => "vtable for "
  | vtt => "VTT for "
  | typeinfo => "typeinfo for "
  | typeinfoName => "typeinfo name for "
  | tlsInit => "TLS init function for "
  | tlsWrapper => "TLS wrapper function for "
  | templateParamObject => "template parameter object for "
  | guardVariable => "guard variable for "
  | hiddenAlias => "hidden alias for "
  | transactionClone => "transaction clone for "
  | nonTransactionClone => "non-transaction clone for "
  | nonVirtualThunk => "non-virtual thunk to "
  | virtualThunk => "virtual thunk to "
  | covariantThunk => "covariant return thunk to "

/-- How many adjustments of `this` a name of this kind carries. -/
def offsetCount : SpecialNameKind → Nat
  | nonVirtualThunk | virtualThunk => 1
  | covariantThunk => 2
  | _ => 0

end SpecialNameKind

end MangledNames
