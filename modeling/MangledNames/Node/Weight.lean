import MangledNames.Node.Fields
set_option autoImplicit false

/-!
A measure of nodes under which all children together are lighter than their parent. Whatever goes
from nodes to children ends by it.
-/

namespace MangledNames

namespace Field

@[simp] theorem nodes_plain (value : Attribute) : (plain value).nodes = [] := rfl
@[simp] theorem nodes_flag (value : Bool) : (flag value).nodes = [] := rfl
@[simp] theorem nodes_text (value : String) : (text value).nodes = [] := rfl
@[simp] theorem nodes_number (value : Nat) : (number value).nodes = [] := rfl
@[simp] theorem nodes_child (node : Node) : (child node).nodes = [node] := rfl
@[simp] theorem nodes_children (nodes : List Node) : (children nodes).nodes = nodes := rfl

end Field

namespace Node

/-- Twice the size of the tree, and one less for nodes that also show as part of another. -/
noncomputable def weight : Node → Nat
  | node@(sourceName _) => 2 * sizeOf node - 1
  | node@(templateArgs _) => 2 * sizeOf node - 1
  | node@(encoding _) => 2 * sizeOf node - 1
  | node => 2 * sizeOf node

noncomputable def totalWeight : List Node → Nat
  | [] => 0
  | node :: nodes => node.weight + totalWeight nodes

theorem weight_pos (node : Node) : 0 < node.weight := by
  cases node <;> simp [weight] <;> omega

theorem weight_le (node : Node) : node.weight ≤ 2 * sizeOf node := by
  cases node <;> simp [weight]

theorem weight_sourceName (value : String) :
    (sourceName value).weight = 2 * sizeOf value + 1 := by
  simp [weight]; omega

theorem weight_templateArgs (arguments : List Node) :
    (templateArgs arguments).weight = 2 * sizeOf arguments + 1 := by
  simp [weight]; omega

theorem weight_encoding (e : Encoding Node) : (encoding e).weight = 2 * sizeOf e + 1 := by
  simp [weight]; omega

@[simp] theorem totalWeight_nil : totalWeight [] = 0 := rfl

@[simp] theorem totalWeight_cons (node : Node) (nodes : List Node) :
    totalWeight (node :: nodes) = node.weight + totalWeight nodes := rfl

@[simp] theorem totalWeight_append (a b : List Node) :
    totalWeight (a ++ b) = totalWeight a + totalWeight b := by
  induction a with
  | nil => simp
  | cons node nodes ih => simp [ih,Nat.add_assoc]

@[simp] theorem totalWeight_reverse (nodes : List Node) :
    totalWeight nodes.reverse = totalWeight nodes := by
  induction nodes with
  | nil => rfl
  | cons node nodes ih => simp [ih]; omega

theorem totalWeight_lt (nodes : List Node) : totalWeight nodes < 2 * sizeOf nodes := by
  induction nodes with
  | nil => simp
  | cons node nodes ih =>
    have := node.weight_le
    simp
    omega

theorem totalWeight_names_lt (names : List String) :
    totalWeight (names.map sourceName) < 2 * sizeOf names := by
  induction names with
  | nil => simp
  | cons name names ih => simp [weight_sourceName]; omega

theorem totalWeight_optional_lt (node : Option Node) :
    totalWeight (Field.optional node).nodes < 2 * sizeOf node := by
  cases node with
  | none => simp [Field.optional]
  | some node =>
    have := node.weight_le
    simp [Field.optional]
    omega

theorem totalWeight_optionalList_lt (nodes : Option (List Node)) :
    totalWeight (Field.optionalList nodes).nodes < 2 * sizeOf nodes := by
  cases nodes with
  | none => simp [Field.optionalList]
  | some nodes =>
    have := totalWeight_lt nodes
    simp [Field.optionalList]
    omega

theorem totalWeight_arguments_lt (nodes : Option (List Node)) :
    totalWeight (Field.arguments nodes).nodes < 2 * sizeOf nodes := by
  cases nodes with
  | none => simp [Field.arguments]
  | some nodes =>
    simp only [Field.arguments,Field.nodes_child,totalWeight_cons,totalWeight_nil,
      weight_templateArgs,Option.some.sizeOf_spec]
    omega

theorem totalWeight_dimension_lt (dimension : Dimension Node) :
    totalWeight (Field.dimension dimension).nodes < 2 * sizeOf dimension := by
  cases dimension with
  | size n =>
    simp only [Field.dimension,Field.nodes_number,totalWeight_nil,Dimension.size.sizeOf_spec]
    omega
  | expression e => have := e.weight_le; simp [Field.dimension]; omega

theorem totalWeight_exceptionSpec_le (spec : Option (ExceptionSpec Node)) :
    totalWeight (Field.optional (spec.map exceptionSpec)).nodes ≤ 2 * sizeOf spec := by
  cases spec with
  | none => simp [Field.optional]
  | some spec => simp [Field.optional,weight]

theorem totalWeight_signature_le (s : Option (Signature Node)) :
    totalWeight (Field.optional (s.map signature)).nodes ≤ 2 * sizeOf s := by
  cases s with
  | none => simp [Field.optional]
  | some s => simp [Field.optional,weight]

theorem totalWeight_children_lt (node : Node) : totalWeight node.children < node.weight := by
  cases node with
  | sourceName value => exact weight_pos _
  | templateArgs arguments =>
    have := totalWeight_lt arguments
    simp [children,fields,weight_templateArgs]
    omega
  | literalOperatorName name =>
    change totalWeight [sourceName name] < 2 * sizeOf (literalOperatorName name)
    rw [totalWeight_cons, totalWeight_nil, weight_sourceName, literalOperatorName.sizeOf_spec]
    omega
  | vendorOperatorName arity name =>
    change totalWeight [sourceName name] < 2 * sizeOf (vendorOperatorName arity name)
    rw [totalWeight_cons, totalWeight_nil, weight_sourceName, vendorOperatorName.sizeOf_spec]
    omega
  | templateName name arguments =>
    have := name.weight_le
    simp only [weight]
    simp [children,fields,weight_templateArgs]
    omega
  | ctorDtorName kind name inheriting =>
    have := name.weight_le
    have := totalWeight_optional_lt inheriting
    simp only [weight]
    simp [children,fields]
    omega
  | closureTypeName parameters number =>
    have := totalWeight_lt parameters
    simp [children,fields,weight]
    omega
  | structuredBindingName names =>
    have := totalWeight_names_lt names
    simp [children,fields,weight]
    omega
  | localName function entity =>
    have := entity.weight_le
    simp only [weight]
    simp [children,fields,weight_encoding]
    omega
  | vendorExtendedType name arguments =>
    have := totalWeight_arguments_lt arguments
    simp [children,fields,weight]
    omega
  | vendorQualifiedType inner qualifier arguments =>
    have := inner.weight_le
    have := totalWeight_arguments_lt arguments
    simp only [weight]
    simp [children,fields]
    omega
  | arrayType element dimension =>
    have := element.weight_le
    simp only [weight]
    cases dimension with
    | none => simp [children,fields]; omega
    | some dimension =>
      have := totalWeight_dimension_lt dimension
      simp [children,fields]
      omega
  | functionType f =>
    cases f with
    | mk returnType parameters cv ref spec externC transactionSafe =>
      have := returnType.weight_le
      have := totalWeight_lt parameters
      have := totalWeight_exceptionSpec_le spec
      simp only [weight]
      simp [children,fields]
      omega
  | exceptionSpec spec =>
    cases spec with
    | noexcept condition =>
      have := totalWeight_optional_lt condition
      simp [children,fields,weight]
      omega
    | throwing types =>
      have := totalWeight_lt types
      simp [children,fields,weight]
      omega
  | vectorType element dimension =>
    have := element.weight_le
    have := totalWeight_dimension_lt dimension
    simp only [weight]
    simp [children,fields]
    omega
  | templateArgPack arguments =>
    have := totalWeight_lt arguments
    simp [children,fields,weight]
    omega
  | callExpression callee arguments =>
    have := callee.weight_le
    have := totalWeight_lt arguments
    simp only [weight]
    simp [children,fields]
    omega
  | conversionExpression type arguments =>
    have := type.weight_le
    have := totalWeight_lt arguments
    simp only [weight]
    simp [children,fields]
    omega
  | initListExpression type elements =>
    have := totalWeight_optional_lt type
    have := totalWeight_lt elements
    simp [children,fields,weight]
    omega
  | newExpression placement type initializer array globalScope =>
    have := totalWeight_lt placement
    have := type.weight_le
    have := totalWeight_optionalList_lt initializer
    simp only [weight]
    simp [children,fields]
    omega
  | throwExpression operand =>
    have := totalWeight_optional_lt operand
    simp [children,fields,weight]
    omega
  | signature s =>
    cases s with
    | mk returnType parameters cv ref =>
      have := totalWeight_optional_lt returnType
      have := totalWeight_lt parameters
      simp [children,fields,weight]
      omega
  | encoding e =>
    cases e with
    | mk name s =>
      have := name.weight_le
      have := totalWeight_signature_le s
      simp only [weight]
      simp [children,fields]
      omega
  | _ =>
    simp only [weight]
    simp [children,fields] <;> grind [weight_le]

theorem weight_le_totalWeight {child : Node} {nodes : List Node} (h : child ∈ nodes) :
    child.weight ≤ totalWeight nodes := by
  induction nodes with
  | nil => cases h
  | cons node nodes ih =>
    rw [totalWeight_cons]
    rcases List.mem_cons.mp h with rfl | h
    · exact Nat.le_add_right _ _
    · exact Nat.le_trans (ih h) (Nat.le_add_left _ _)

theorem weight_child_lt {node child : Node} (h : child ∈ node.children) :
    child.weight < node.weight :=
  Nat.lt_of_le_of_lt (weight_le_totalWeight h) node.totalWeight_children_lt

end Node

end MangledNames
