import MangledNames.Proofs.Grammar.Spellable
set_option autoImplicit false

/-!
Functions as they are declared, on their own or in classes, and the symbol of each in full.
-/

namespace MangledNames.Grammar

open Cursor

def argumentsCode : Option (List Node) → List Char
  | none => []
  | some arguments => 'I' :: (Node.typesCode arguments ++ ['E'])

def argumentsLevels : Option (List Node) → Nat
  | none => 0
  | some arguments => Node.typesLevels arguments + 2

def withArguments (name : Node) : Option (List Node) → Node
  | none => name
  | some arguments => .templateName name arguments

/-- Template arguments of a class or a function, if it has any. -/
def ProperArguments (arguments : Option (List Node)) : Prop :=
  ∀ types ∈ arguments, Spellable (.types types)

/-- A class on the way to a function. -/
structure ClassStep where
  identifier : String
  arguments : Option (List Node)

namespace ClassStep

def code (step : ClassStep) : List Char :=
  identifierCode step.identifier ++ argumentsCode step.arguments

def levels (step : ClassStep) : Nat := max 1 (argumentsLevels step.arguments)

def node (scope : Option Node) (step : ClassStep) : Node :=
  withArguments (join scope (.sourceName step.identifier)) step.arguments

structure Proper (step : ClassStep) : Prop where
  identifier : Identifier step.identifier
  arguments : ProperArguments step.arguments

end ClassStep

def stepsLevels : List ClassStep → Nat
  | [] => 0
  | step :: steps => max step.levels (stepsLevels steps)

def scopeOf (scope : Option Node) (steps : List ClassStep) : Option Node :=
  steps.foldl (fun scope step => some (step.node scope)) scope

/-- What a function can be called inside and outside of classes. -/
inductive OwnName where
  | identifier (name : String)
  | operator (operator : Operator)

namespace OwnName

def code : OwnName → List Char
  | identifier name => identifierCode name
  | operator o => [o.code.1,o.code.2]

def node : OwnName → Node
  | identifier name => .sourceName name
  | operator o => .operatorName o

def Proper : OwnName → Prop
  | identifier name => Identifier name
  | operator _ => True

end OwnName

/-- Builtin types and template parameters behind pointers, references and qualifiers. The text of
such a type has no place for arguments but its end. -/
inductive Plain : Node → Prop
  | builtin {type : BuiltinType} {code : List Char} : BuiltinCode type code →
    Plain (.builtinType type)
  | templateParam {i : Nat} : i ≤ 10 ^ numberDigitsMax → Plain (.templateParam i)
  | wrapped {code : List Char} {wrap : Node → Node} {inner : Node} : Wrapping code wrap →
    code ∈ [['P'],['R'],['O']] → Plain inner → Plain (wrap inner)
  | qualified {inner : Node} {cv : CvQualifiers} : cv.isEmpty = false →
    (∀ inner' cv', inner ≠ .qualifiedType inner' cv') → Plain inner →
    Plain (.qualifiedType inner cv)

/-- What only a member of a class can be called. -/
inductive MemberName where
  | own (name : OwnName)
  | ctorDtor (kind : CtorDtorKind)
  | conversion (type : Node)

namespace MemberName

def code : MemberName → List Char
  | own name => name.code
  | ctorDtor kind => [kind.code.1,kind.code.2]
  | conversion type => 'c' :: 'v' :: type.typeCode

def levels : MemberName → Nat
  | own _ => 1
  | ctorDtor _ => 0
  | conversion type => type.typeLevels + 1

/-- Constructors and destructors are called as their class is, without its arguments. -/
def node (inner : ClassStep) : MemberName → Node
  | own name => name.node
  | ctorDtor kind => .ctorDtorName kind (.sourceName inner.identifier) none
  | conversion type => .conversionOperatorName type

def isCtorDtorConversion : MemberName → Bool
  | own _ => false
  | _ => true

/-- The arguments of a conversion follow the type, so this type leaves them alone. -/
def Proper (arguments : Option (List Node)) : MemberName → Prop
  | own name => name.Proper
  | ctorDtor _ => True
  | conversion type => Spellable (.type type) ∧ (arguments.isSome → Plain type)

end MemberName

inductive Placement where
  | free (name : OwnName)
  | member (outer : List ClassStep) (inner : ClassStep) (name : MemberName) (cv : CvQualifiers)
      (ref : Option ReferenceKind)

structure Declaration where
  placement : Placement
  arguments : Option (List Node)
  returnType : Option Node
  parameters : List Node

namespace Placement

def code (arguments : Option (List Node)) : Placement → List Char
  | free name => name.code ++ argumentsCode arguments
  | member outer inner name cv ref =>
    'N' :: (cvCode cv ++ (refCode ref ++ (outer.flatMap ClassStep.code ++
      (inner.code ++ (name.code ++ (argumentsCode arguments ++ ['E']))))))

def levels (arguments : Option (List Node)) : Placement → Nat
  | free _ => max 2 (argumentsLevels arguments + 1)
  | member outer inner name _ _ =>
    max (stepsLevels (outer ++ [inner])) (max name.levels (argumentsLevels arguments)) + 2

def node : Placement → Node
  | free name => name.node
  | member outer inner name _ _ => .nestedName (inner.node (scopeOf none outer)) (name.node inner)

def cv : Placement → CvQualifiers
  | free _ => {}
  | member _ _ _ cv _ => cv

def ref : Placement → Option ReferenceKind
  | free _ => none
  | member _ _ _ _ ref => ref

def isCtorDtorConversion : Placement → Bool
  | free _ => false
  | member _ _ name _ _ => name.isCtorDtorConversion

def Proper (arguments : Option (List Node)) : Placement → Prop
  | free name => name.Proper
  | member outer inner name _ _ =>
    (∀ step ∈ outer, step.Proper) ∧ inner.Proper ∧ name.Proper arguments

end Placement

namespace Declaration

def name (d : Declaration) : Node := withArguments d.placement.node d.arguments

def returnCode : Option Node → List Char
  | none => []
  | some type => type.typeCode

def signatureCode (d : Declaration) : List Char :=
  returnCode d.returnType ++ Node.parametersCode d.parameters

def code (d : Declaration) : List Char := d.placement.code d.arguments ++ d.signatureCode

def returnLevels : Option Node → Nat
  | none => 0
  | some type => type.typeLevels

/-- The productions that are nested in each other while the symbol is read. -/
def levels (d : Declaration) : Nat :=
  max (d.placement.levels d.arguments)
    (max (returnLevels d.returnType) (Node.typesLevels d.parameters)) + 1

/-- What the symbol says: the name, and the signature with the qualifiers of a member function. -/
def tree (d : Declaration) : Node :=
  .mangledName (.encoding ⟨d.name,some {
    returnType := d.returnType
    parameters := d.parameters
    cv := d.placement.cv
    ref := d.placement.ref }⟩) none

/-- Functions with arguments of their own return what they say, unless their name says it. -/
structure Proper (d : Declaration) : Prop where
  placement : d.placement.Proper d.arguments
  arguments : ProperArguments d.arguments
  returns : d.returnType.isSome = (d.arguments.isSome && !d.placement.isCtorDtorConversion)
  returnType : ∀ type ∈ d.returnType, Spellable (.type type)
  parameters : Spellable (.types d.parameters)
  notVoid : ∀ type ∈ d.parameters, type ≠ .builtinType .void

end Declaration

end MangledNames.Grammar
