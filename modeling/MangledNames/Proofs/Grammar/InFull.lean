import MangledNames.Proofs.Grammar.Spelling
set_option autoImplicit false

/-!
Types spelled in full, without back references: what they are alone says how they are spelled.
-/

namespace MangledNames

def BuiltinType.code : BuiltinType → List Char
  | void => ['v'] | wchar => ['w'] | bool => ['b']
  | char => ['c'] | signedChar => ['a'] | unsignedChar => ['h']
  | short => ['s'] | unsignedShort => ['t'] | int => ['i'] | unsignedInt => ['j']
  | long => ['l'] | unsignedLong => ['m'] | longLong => ['x'] | unsignedLongLong => ['y']
  | int128 => ['n'] | unsignedInt128 => ['o']
  | float => ['f'] | double => ['d'] | longDouble => ['e'] | float128 => ['g']
  | ellipsis => ['z']
  | decimal64 => ['D','d'] | decimal128 => ['D','e'] | decimal32 => ['D','f'] | half => ['D','h']
  | char32 => ['D','i'] | char16 => ['D','s'] | char8 => ['D','u']
  | auto => ['D','a'] | decltypeAuto => ['D','c'] | nullptr => ['D','n']
  | floatN _ => []

namespace Grammar

theorem BuiltinCode.code_eq {type : BuiltinType} {code : List Char} (h : BuiltinCode type code) :
    type.code = code := by
  cases h with
  | letter h =>
    unfold BuiltinType.ofLetter? at h
    split at h
    all_goals cases h
    all_goals rfl
  | afterD h =>
    unfold BuiltinType.ofLetterAfterD? at h
    split at h
    all_goals cases h
    all_goals rfl

end Grammar

namespace Node

open Grammar

mutual

def typeCode : Node → List Char
  | builtinType type => type.code
  | templateParam i => templateParamCode i
  | pointerType inner => 'P' :: inner.typeCode
  | referenceType inner .lvalue => 'R' :: inner.typeCode
  | referenceType inner .rvalue => 'O' :: inner.typeCode
  | complexType inner => 'C' :: inner.typeCode
  | imaginaryType inner => 'G' :: inner.typeCode
  | packExpansion inner => 'D' :: 'p' :: inner.typeCode
  | qualifiedType inner cv => cvCode cv ++ inner.typeCode
  | pointerToMemberType classType memberType =>
    'M' :: (classType.typeCode ++ memberType.typeCode)
  | arrayType element none => 'A' :: (arrayBound none ++ element.typeCode)
  | arrayType element (some (.size n)) => 'A' :: (arrayBound (some n) ++ element.typeCode)
  | vectorType element (.size n) => 'D' :: 'v' :: (spelled 10 n ++ '_' :: element.typeCode)
  | functionType ⟨returnType,parameters,cv,ref,spec,externC,transactionSafe⟩ =>
    cvCode cv ++ (specCode spec ++ ((if transactionSafe then ['D','x'] else []) ++ 'F' ::
      ((if externC then ['Y'] else []) ++
        (returnType.typeCode ++ (parametersCode parameters ++ functionEnd ref)))))
  | sourceName name => identifierCode name
  | templateName (sourceName name) arguments =>
    identifierCode name ++ 'I' :: (typesCode arguments ++ ['E'])
  | templateName name arguments =>
    'N' :: (name.scopeCode ++ 'I' :: (typesCode arguments ++ ['E','E']))
  | nestedName scope (sourceName name) => 'N' :: (scope.scopeCode ++ (identifierCode name ++ ['E']))
  | _ => []

def scopeCode : Node → List Char
  | sourceName name => identifierCode name
  | nestedName scope (sourceName name) => scope.scopeCode ++ identifierCode name
  | templateName name arguments => name.scopeCode ++ 'I' :: (typesCode arguments ++ ['E'])
  | _ => []

def typesCode : List Node → List Char
  | [] => []
  | type :: types => type.typeCode ++ typesCode types

def parametersCode : List Node → List Char
  | [] => ['v']
  | type :: types => type.typeCode ++ typesCode types

def specCode : Option (ExceptionSpec Node) → List Char
  | none => []
  | some (.noexcept _) => ['D','o']
  | some (.throwing types) => 'D' :: 'w' :: (typesCode types ++ ['E'])

end

mutual

/-- The productions that are nested in each other while a type is read that is spelled in full. -/
def typeLevels : Node → Nat
  | pointerType inner | referenceType inner _ | complexType inner | imaginaryType inner
  | packExpansion inner | qualifiedType inner _ | arrayType inner _ | vectorType inner _ =>
    inner.typeLevels + 1
  | pointerToMemberType classType memberType => max classType.typeLevels memberType.typeLevels + 1
  | functionType ⟨returnType,parameters,cv,_,spec,_,_⟩ =>
    max (specLevels spec) (max returnType.typeLevels (typesLevels parameters)) +
      if cv.isEmpty then 1 else 2
  | sourceName _ => 3
  | templateName (sourceName _) arguments => typesLevels arguments + 4
  | templateName name arguments => max name.scopeLevels (typesLevels arguments + 2) + 3
  | nestedName scope _ => max scope.scopeLevels 1 + 3
  | _ => 1

def scopeLevels : Node → Nat
  | nestedName scope _ => max scope.scopeLevels 1
  | templateName name arguments => max name.scopeLevels (typesLevels arguments + 2)
  | _ => 1

def typesLevels : List Node → Nat
  | [] => 0
  | type :: types => max type.typeLevels (typesLevels types)

def specLevels : Option (ExceptionSpec Node) → Nat
  | some (.throwing types) => typesLevels types
  | _ => 0

end

end Node

namespace Grammar

/-- A phrase that is spelled in full. -/
def Phrase.inFull : Phrase → List Char
  | .type node => node.typeCode
  | .types nodes => Node.typesCode nodes
  | .scope node => node.scopeCode
  | .spec s => Node.specCode s
  | .parameters nodes => Node.parametersCode nodes

def Phrase.levels : Phrase → Nat
  | .type node => node.typeLevels
  | .types nodes | .parameters nodes => Node.typesLevels nodes
  | .scope node => node.scopeLevels
  | .spec s => Node.specLevels s

theorem Wrapping.typeLevels_wrap {code : List Char} {wrap : Node → Node} (h : Wrapping code wrap)
    (inner : Node) : (wrap inner).typeLevels = inner.typeLevels + 1 := by
  cases h <;> rfl

theorem Wrapping.typeCode_wrap {code : List Char} {wrap : Node → Node} (h : Wrapping code wrap)
    (inner : Node) : (wrap inner).typeCode = code ++ inner.typeCode := by
  cases h <;> rfl

theorem typeCode_array (element : Node) (bound : Option Nat) :
    (Node.arrayType element (bound.map .size)).typeCode =
      'A' :: (arrayBound bound ++ element.typeCode) := by
  cases bound <;> rfl

end Grammar

end MangledNames
