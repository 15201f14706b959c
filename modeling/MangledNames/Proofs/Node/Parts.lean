import MangledNames.Node.Weight
set_option autoImplicit false

/-!
The parts of nodes: what becomes of a node when a function is applied to each of them, which of them
are printed, and what stands anywhere below a node.
-/

namespace MangledNames

def Dimension.nodes : Dimension Node → List Node
  | size _ => []
  | expression e => [e]

def Dimension.map (f : Node → Node) : Dimension Node → Dimension Node
  | size n => size n
  | expression e => expression (f e)

def ExceptionSpec.nodes : ExceptionSpec Node → List Node
  | noexcept condition => condition.toList
  | throwing types => types

def ExceptionSpec.map (f : Node → Node) : ExceptionSpec Node → ExceptionSpec Node
  | noexcept condition => noexcept (condition.map f)
  | throwing types => throwing (types.map f)

def FunctionType.map (f : Node → Node) (type : FunctionType Node) : FunctionType Node :=
  { type with
    returnType := f type.returnType
    parameters := type.parameters.map f
    exceptionSpec := type.exceptionSpec.map (·.map f) }

def Signature.map (f : Node → Node) (s : Signature Node) : Signature Node :=
  { s with returnType := s.returnType.map f, parameters := s.parameters.map f }

def Encoding.map (f : Node → Node) (e : Encoding Node) : Encoding Node :=
  ⟨f e.name, e.signature.map (·.map f)⟩

@[simp] theorem Dimension.map_same (bound : Dimension Node) :
    bound.map (fun part => part) = bound := by
  cases bound <;> rfl

@[simp] theorem ExceptionSpec.map_same (spec : ExceptionSpec Node) :
    spec.map (fun part => part) = spec := by
  cases spec <;> simp [map]

@[simp] theorem FunctionType.map_same (type : FunctionType Node) :
    type.map (fun part => part) = type := by
  simp [map]

@[simp] theorem Signature.map_same (s : Signature Node) : s.map (fun part => part) = s := by
  simp [map]

@[simp] theorem Encoding.map_same (e : Encoding Node) : e.map (fun part => part) = e := by
  simp [map]

namespace Field

@[simp] theorem nodes_optional (node : Option Node) : (optional node).nodes = node.toList := by
  cases node <;> rfl

@[simp] theorem nodes_optionalList (nodes : Option (List Node)) :
    (optionalList nodes).nodes = nodes.getD [] := by
  cases nodes <;> rfl

@[simp] theorem nodes_dimension (bound : Dimension Node) :
    (dimension bound).nodes = bound.nodes := by
  cases bound <;> rfl

end Field

namespace Node

def map (f : Node → Node) : Node → Node
  | conversionOperatorName type => conversionOperatorName (f type)
  | ctorDtorName kind name inheriting => ctorDtorName kind (f name) (inheriting.map f)
  | abiTaggedName name tags => abiTaggedName (f name) tags
  | closureTypeName parameters number => closureTypeName (parameters.map f) number
  | nestedName scope name => nestedName (f scope) (f name)
  | templateName name arguments => templateName (f name) (arguments.map f)
  | localName function entity => localName (function.map f) (f entity)
  | unresolvedName name globalScope => unresolvedName (f name) globalScope
  | destructorName name => destructorName (f name)
  | vendorExtendedType name arguments => vendorExtendedType name (arguments.map (·.map f))
  | qualifiedType inner cv => qualifiedType (f inner) cv
  | vendorQualifiedType inner qualifier arguments =>
    vendorQualifiedType (f inner) qualifier (arguments.map (·.map f))
  | pointerType pointee => pointerType (f pointee)
  | referenceType referent kind => referenceType (f referent) kind
  | complexType inner => complexType (f inner)
  | imaginaryType inner => imaginaryType (f inner)
  | arrayType element dimension => arrayType (f element) (dimension.map (·.map f))
  | pointerToMemberType classType memberType => pointerToMemberType (f classType) (f memberType)
  | functionType type => functionType (type.map f)
  | exceptionSpec spec => exceptionSpec (spec.map f)
  | packExpansion pattern => packExpansion (f pattern)
  | decltypeType expression => decltypeType (f expression)
  | vectorType element dimension => vectorType (f element) (dimension.map f)
  | elaboratedType keyword name => elaboratedType keyword (f name)
  | templateArgs arguments => templateArgs (arguments.map f)
  | templateArgPack arguments => templateArgPack (arguments.map f)
  | integerLiteral type value => integerLiteral (f type) value
  | floatLiteral type value => floatLiteral (f type) value
  | stringLiteral type => stringLiteral (f type)
  | externalName e => externalName (f e)
  | unaryExpression operator operand afterOperand =>
    unaryExpression operator (f operand) afterOperand
  | binaryExpression operator left right => binaryExpression operator (f left) (f right)
  | conditionalExpression condition whenTrue whenFalse =>
    conditionalExpression (f condition) (f whenTrue) (f whenFalse)
  | callExpression callee arguments => callExpression (f callee) (arguments.map f)
  | castExpression keyword type operand => castExpression keyword (f type) (f operand)
  | conversionExpression type arguments => conversionExpression (f type) (arguments.map f)
  | initListExpression type elements => initListExpression (type.map f) (elements.map f)
  | newExpression placement type initializer array globalScope =>
    newExpression (placement.map f) (f type) (initializer.map (·.map f)) array globalScope
  | deleteExpression operand array globalScope => deleteExpression (f operand) array globalScope
  | typeOperatorExpression operator type => typeOperatorExpression operator (f type)
  | expressionOperatorExpression operator operand =>
    expressionOperatorExpression operator (f operand)
  | sizeofPackExpression pattern => sizeofPackExpression (f pattern)
  | memberExpression object access member => memberExpression (f object) access (f member)
  | throwExpression operand => throwExpression (operand.map f)
  | packExpansionExpression pattern => packExpansionExpression (f pattern)
  | signature s => signature (s.map f)
  | encoding e => encoding (e.map f)
  | specialName kind target offsets => specialName kind (f target) offsets
  | referenceTemporary name number => referenceTemporary (f name) number
  | constructionVtable complete base => constructionVtable (f complete) (f base)
  | mangledName e cloneSuffix => mangledName (f e) cloneSuffix
  | node => node

theorem map_same (node : Node) : node.map (fun part => part) = node := by
  cases node <;> simp [map]

/-- Nodes that are printed elsewhere or not as they stand: parameters and expansions, and what
has template arguments or a closure around it. -/
def KeepsPlace : Node → Prop
  | templateParam _ | packExpansion _ | packExpansionExpression _ | encoding _ | localName _ _
  | closureTypeName _ _ => False
  | _ => True

/-- The parts that are printed where the node itself is. -/
def printed : Node → List Node
  | conversionOperatorName node | ctorDtorName _ node _ | abiTaggedName node _
  | unresolvedName node _ | destructorName node | qualifiedType node _ | pointerType node
  | referenceType node _ | complexType node | imaginaryType node | decltypeType node
  | elaboratedType _ node | integerLiteral node _ | floatLiteral node _ | stringLiteral node
  | externalName node | unaryExpression _ node _ | deleteExpression node _ _
  | typeOperatorExpression _ node | expressionOperatorExpression _ node
  | sizeofPackExpression node | specialName _ node _ | referenceTemporary node _
  | mangledName node _ => [node]
  | nestedName a b | pointerToMemberType a b | binaryExpression _ a b | castExpression _ a b
  | memberExpression a _ b | constructionVtable a b => [a, b]
  | conditionalExpression a b c => [a, b, c]
  | templateArgs nodes | templateArgPack nodes => nodes
  | templateName node nodes | callExpression node nodes | conversionExpression node nodes =>
    node :: nodes
  | vendorExtendedType _ arguments => arguments.getD []
  | vendorQualifiedType inner _ arguments => inner :: arguments.getD []
  | arrayType element dimension => element :: (dimension.map Dimension.nodes).getD []
  | vectorType element dimension => element :: dimension.nodes
  | functionType f =>
    f.returnType :: (f.parameters ++ (f.exceptionSpec.map ExceptionSpec.nodes).getD [])
  | initListExpression type elements => type.toList ++ elements
  | newExpression placement type initializer _ _ => type :: (placement ++ initializer.getD [])
  | throwExpression operand => operand.toList
  | _ => []

def pattern? : Node → Option Node
  | packExpansion pattern | packExpansionExpression pattern => some pattern
  | _ => none

def literalType? : Node → Option Node
  | integerLiteral type _ | floatLiteral type _ => some type
  | _ => none

/-- Somewhere in a node there is the other one. -/
inductive Within (inner : Node) : Node → Prop
  | self : Within inner inner
  | child {node child : Node} : child ∈ node.children → Within inner child → Within inner node

/-- Nodes without template parameters. -/
def Ground (node : Node) : Prop := ∀ index, ¬Within (templateParam index) node

theorem Ground.child {node child : Node} (h : node.Ground) (hchild : child ∈ node.children) :
    child.Ground := fun index hwithin => h index (.child hchild hwithin)

theorem not_ground_param (index : Nat) : ¬(templateParam index).Ground := fun h => h index .self

theorem ground_of_children {node : Node} (hparam : ∀ index, node ≠ templateParam index)
    (hchildren : ∀ child ∈ node.children, child.Ground) : node.Ground := by
  intro index hwithin
  cases hwithin with
  | self => exact hparam index rfl
  | child hchild hwithin => exact hchildren _ hchild index hwithin

theorem ground_sourceName (value : String) : (sourceName value).Ground :=
  ground_of_children nofun nofun

theorem ground_builtinType (type : BuiltinType) : (builtinType type).Ground :=
  ground_of_children nofun nofun

/-- Lists of arguments and exception specifications show as nodes between a node and its parts. -/
theorem children_of_printed {node part : Node} (h : part ∈ node.printed) :
    part ∈ node.children ∨
      ∃ group ∈ node.children, group.pattern? = none ∧ part ∈ group.children := by
  have list : ∀ {arguments : List Node}, part ∈ arguments →
      part ∈ (templateArgs arguments).children :=
    fun h => by simpa [children,fields] using h
  cases node with
  | templateName name arguments =>
    rcases List.mem_cons.mp h with rfl | h
    · exact .inl (by simp [children,fields])
    · exact .inr ⟨templateArgs arguments,by simp [children,fields],rfl,list h⟩
  | vendorExtendedType name arguments =>
    cases arguments with
    | none => cases h
    | some arguments =>
      exact .inr ⟨templateArgs arguments,by simp [children,fields,Field.arguments],rfl,list h⟩
  | vendorQualifiedType inner qualifier arguments =>
    rcases List.mem_cons.mp h with rfl | h
    · exact .inl (by simp [children,fields])
    · cases arguments with
      | none => cases h
      | some arguments =>
        exact .inr ⟨templateArgs arguments,by simp [children,fields,Field.arguments],rfl,list h⟩
  | functionType f =>
    rcases List.mem_cons.mp h with rfl | h
    · exact .inl (by simp [children,fields])
    · rcases List.mem_append.mp h with h | h
      · exact .inl (by simp [children,fields,h])
      · cases hspec : f.exceptionSpec with
        | none => simp [hspec] at h
        | some spec =>
          refine .inr ⟨exceptionSpec spec,by simp [children,fields,hspec,Field.optional],rfl,?_⟩
          cases spec <;> simpa [hspec,children,fields,ExceptionSpec.nodes] using h
  | arrayType element dimension =>
    cases dimension <;> exact .inl (by simpa [children,fields,printed] using h)
  | ctorDtorName kind name inheriting =>
    cases List.mem_singleton.mp h
    exact .inl (by simp [children,fields])
  | _ =>
    left
    revert h
    simp [children,fields,printed,or_left_comm]

/-- Every node of the tree is as `p` says. -/
def Throughout (p : Node → Prop) (node : Node) : Prop := ∀ part, Within part node → p part

namespace Throughout

variable {p : Node → Prop} {node part : Node}

theorem self (h : node.Throughout p) : p node := h node .self

theorem child (h : node.Throughout p) (hpart : part ∈ node.children) : part.Throughout p :=
  fun inner hinner => h inner (.child hpart hinner)

theorem printed (h : node.Throughout p) (hpart : part ∈ node.printed) : part.Throughout p := by
  rcases children_of_printed hpart with hchild | ⟨group,hgroup,_,hchild⟩
  · exact h.child hchild
  · exact (h.child hgroup).child hchild

theorem of_children (hself : p node) (h : ∀ child ∈ node.children, child.Throughout p) :
    node.Throughout p := by
  intro part hpart
  cases hpart with
  | self => exact hself
  | child hchild hwithin => exact h _ hchild _ hwithin

end Throughout

end Node

end MangledNames
