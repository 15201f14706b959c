import MangledNames.Grammar.Expression
set_option autoImplicit false

/-!
Trees in which every node keeps its promises: its fields fit its kind, and signatures and exception
specifications stand only inside of what they belong to.
-/

namespace MangledNames.Node

mutual

/-- A node whose fields fit its kind, made of such nodes. -/
def Sound : Node → Prop
  | signature _ | exceptionSpec _ => False
  | sourceName name | literalOperatorName name => name.isEmpty = false
  | operatorName _ | stringLiteralName | specialSubstitution _ _
  | builtinType _ | templateParam _ | boolLiteral _ | nullptrLiteral | functionParam _ => True
  | vendorOperatorName arity name => arity ≤ 9 ∧ name.isEmpty = false
  | unnamedTypeName number => 1 ≤ number
  | structuredBindingName names => names.isEmpty = false ∧ ∀ name ∈ names, name.isEmpty = false
  | conversionOperatorName node | unresolvedName node _ | destructorName node | pointerType node
  | referenceType node _ | complexType node | imaginaryType node | packExpansion node
  | decltypeType node | elaboratedType _ node | stringLiteral node | externalName node
  | unaryExpression _ node _ | deleteExpression node _ _ | typeOperatorExpression _ node
  | expressionOperatorExpression _ node | sizeofPackExpression node
  | packExpansionExpression node | referenceTemporary node _ => node.Sound
  | abiTaggedName name tags => tags.isEmpty = false ∧ name.Sound
  | qualifiedType inner cv => cv.isEmpty = false ∧ inner.Sound
  | integerLiteral type value => isDecimal value = true ∧ type.Sound
  | floatLiteral type value => Grammar.isFloatValue value.toList = true ∧
    Grammar.isFloatingType type = true ∧ type.Sound
  | specialName kind target offsets => offsets.length = kind.offsetCount ∧ target.Sound
  | mangledName node none => node.Sound
  | mangledName node (some suffix) => suffix.toList.head? = some '.' ∧ node.Sound
  | nestedName a b | pointerToMemberType a b | binaryExpression _ a b | castExpression _ a b
  | memberExpression a _ b | constructionVtable a b => a.Sound ∧ b.Sound
  | conditionalExpression a b c => a.Sound ∧ b.Sound ∧ c.Sound
  | closureTypeName parameters number => 1 ≤ number ∧ AllSound parameters
  | templateArgs nodes | templateArgPack nodes => AllSound nodes
  | templateName node nodes | callExpression node nodes | conversionExpression node nodes =>
    node.Sound ∧ AllSound nodes
  | ctorDtorName kind name inheriting =>
    (inheriting.isNone || !kind.isDestructor) = true ∧ name.Sound ∧ OptionSound inheriting
  | localName ⟨name,s⟩ entity =>
    (name.Sound ∧ SignatureSound s) ∧ entity.Sound
  | encoding ⟨name,s⟩ => name.Sound ∧ SignatureSound s
  | vendorExtendedType _ arguments => ListSound arguments
  | vendorQualifiedType inner _ arguments => inner.Sound ∧ ListSound arguments
  | arrayType element none => element.Sound
  | arrayType element (some dimension) => element.Sound ∧ DimensionSound dimension
  | vectorType element dimension => element.Sound ∧ DimensionSound dimension
  | functionType ⟨returnType,parameters,_,_,spec,_,_⟩ =>
    returnType.Sound ∧ AllSound parameters ∧ SpecSound spec
  | initListExpression type elements => OptionSound type ∧ AllSound elements
  | newExpression placement type initializer _ _ =>
    AllSound placement ∧ type.Sound ∧ ListSound initializer
  | throwExpression operand => OptionSound operand

def AllSound : List Node → Prop
  | [] => True
  | node :: nodes => node.Sound ∧ AllSound nodes

def OptionSound : Option Node → Prop
  | none => True
  | some node => node.Sound

def ListSound : Option (List Node) → Prop
  | none => True
  | some nodes => AllSound nodes

def DimensionSound : Dimension Node → Prop
  | .size _ => True
  | .expression node => node.Sound

def SignatureSound : Option (Signature Node) → Prop
  | none => True
  | some ⟨returnType,parameters,_,_⟩ => OptionSound returnType ∧ AllSound parameters

def SpecSound : Option (ExceptionSpec Node) → Prop
  | none => True
  | some (.noexcept condition) => OptionSound condition
  | some (.throwing types) => AllSound types

end

theorem allSound_iff {nodes : List Node} : AllSound nodes ↔ ∀ node ∈ nodes, node.Sound := by
  induction nodes with
  | nil => simp [AllSound]
  | cons node nodes ih =>
    rw [List.forall_mem_cons,← ih]
    exact Iff.rfl

theorem className_sound {node : Node} (h : node.Sound) : node.className.Sound := by
  fun_induction className node with
  | case1 scope name ih => exact ih h.2
  | case2 name arguments ih => exact ih h.1
  | case3 name tags ih => exact ih h.2
  | case4 name expanded =>
    change name.className.isEmpty = false
    cases name <;> rfl
  | case5 node => exact h

end MangledNames.Node
