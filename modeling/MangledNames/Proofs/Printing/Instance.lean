import MangledNames.Proofs.Node.Parts
import MangledNames.Printing.Scope
set_option autoImplicit false

/-!
Trees in which every template parameter is replaced by what it stands for, and every expansion by
the pack of its copies.
-/

namespace MangledNames

open Printing

namespace Printing

/-- The size of the first pack among nodes that are still to be searched. -/
def packCountAmong (place : Place) : List Node → Option Nat
  | [] => none
  | node :: others =>
    match node with
    | .templateParam index =>
      match place.argument? index with
      | some (.templateArgPack arguments) => some arguments.length
      | _ => packCountAmong place others
    | .packExpansion _ => packCountAmong place others
    | .packExpansionExpression _ => packCountAmong place others
    | node => packCountAmong place (node.children.reverse ++ others)
  termination_by nodes => Node.totalWeight nodes
  decreasing_by
    all_goals simp [Node.weight_pos,Node.totalWeight_children_lt]

/-- How many copies an expansion has of its pattern. -/
def packCount (place : Place) (pattern : Node) : Option Nat := packCountAmong place [pattern]

end Printing

namespace Node

mutual

/-- What a node comes to at a place. An expansion without a pack stays one. -/
def inst (place : Place) : Node → Node
  | templateParam index =>
    match resolve place index with
    | .ok (argument, _) => argument
    | .error _ => templateParam index
  | packExpansion pattern =>
    match packCount place pattern with
    | none => packExpansion (pattern.inst place)
    | some size =>
      templateArgPack
        ((List.range size).map fun i => pattern.inst { place with packIndex := some i })
  | packExpansionExpression pattern =>
    match packCount place pattern with
    | none => packExpansionExpression (pattern.inst place)
    | some size =>
      templateArgPack
        ((List.range size).map fun i => pattern.inst { place with packIndex := some i })
  | encoding ⟨name, s⟩ =>
    encoding ⟨name.inst (place.enter (templateArgsOf name)),
      instSignature (place.enter (templateArgsOf name)) s⟩
  | localName ⟨name, s⟩ entity =>
    localName
      ⟨name.inst (place.enter (templateArgsOf name)),
        instSignature (place.enter (templateArgsOf name)) s⟩
      (entity.inst (place.enter (templateArgsOf name)))
  | closureTypeName parameters number =>
    closureTypeName (instAll { place with inClosure := true } parameters) number
  | conversionOperatorName type => conversionOperatorName (type.inst place)
  | ctorDtorName kind name inheriting =>
    ctorDtorName kind (name.inst place) (instOption place inheriting)
  | abiTaggedName name tags => abiTaggedName (name.inst place) tags
  | nestedName scope name => nestedName (scope.inst place) (name.inst place)
  | templateName name arguments => templateName (name.inst place) (instAll place arguments)
  | unresolvedName name globalScope => unresolvedName (name.inst place) globalScope
  | destructorName name => destructorName (name.inst place)
  | vendorExtendedType name arguments => vendorExtendedType name (instList place arguments)
  | qualifiedType inner cv => qualifiedType (inner.inst place) cv
  | vendorQualifiedType inner qualifier arguments =>
    vendorQualifiedType (inner.inst place) qualifier (instList place arguments)
  | pointerType pointee => pointerType (pointee.inst place)
  | referenceType referent kind => referenceType (referent.inst place) kind
  | complexType inner => complexType (inner.inst place)
  | imaginaryType inner => imaginaryType (inner.inst place)
  | arrayType element none => arrayType (element.inst place) none
  | arrayType element (some bound) => arrayType (element.inst place) (some (instBound place bound))
  | pointerToMemberType classType memberType =>
    pointerToMemberType (classType.inst place) (memberType.inst place)
  | functionType ⟨returnType, parameters, cv, ref, spec, externC, transactionSafe⟩ =>
    functionType ⟨returnType.inst place, instAll place parameters, cv, ref,
      instOptionSpec place spec, externC, transactionSafe⟩
  | exceptionSpec spec => exceptionSpec (instSpec place spec)
  | decltypeType expression => decltypeType (expression.inst place)
  | vectorType element bound => vectorType (element.inst place) (instBound place bound)
  | elaboratedType keyword name => elaboratedType keyword (name.inst place)
  | templateArgs arguments => templateArgs (instAll place arguments)
  | templateArgPack arguments => templateArgPack (instAll place arguments)
  | integerLiteral type value => integerLiteral (type.inst place) value
  | floatLiteral type value => floatLiteral (type.inst place) value
  | stringLiteral type => stringLiteral (type.inst place)
  | externalName e => externalName (e.inst place)
  | unaryExpression operator operand afterOperand =>
    unaryExpression operator (operand.inst place) afterOperand
  | binaryExpression operator left right =>
    binaryExpression operator (left.inst place) (right.inst place)
  | conditionalExpression condition whenTrue whenFalse =>
    conditionalExpression (condition.inst place) (whenTrue.inst place) (whenFalse.inst place)
  | callExpression callee arguments => callExpression (callee.inst place) (instAll place arguments)
  | castExpression keyword type operand =>
    castExpression keyword (type.inst place) (operand.inst place)
  | conversionExpression type arguments =>
    conversionExpression (type.inst place) (instAll place arguments)
  | initListExpression type elements =>
    initListExpression (instOption place type) (instAll place elements)
  | newExpression placement type initializer array globalScope =>
    newExpression (instAll place placement) (type.inst place) (instList place initializer) array
      globalScope
  | deleteExpression operand array globalScope =>
    deleteExpression (operand.inst place) array globalScope
  | typeOperatorExpression operator type => typeOperatorExpression operator (type.inst place)
  | expressionOperatorExpression operator operand =>
    expressionOperatorExpression operator (operand.inst place)
  | sizeofPackExpression pattern => sizeofPackExpression (pattern.inst place)
  | memberExpression object access member =>
    memberExpression (object.inst place) access (member.inst place)
  | throwExpression operand => throwExpression (instOption place operand)
  | signature ⟨returnType, parameters, cv, ref⟩ =>
    signature ⟨instOption place returnType, instAll place parameters, cv, ref⟩
  | specialName kind target offsets => specialName kind (target.inst place) offsets
  | referenceTemporary name number => referenceTemporary (name.inst place) number
  | constructionVtable complete base => constructionVtable (complete.inst place) (base.inst place)
  | mangledName e cloneSuffix => mangledName (e.inst place) cloneSuffix
  | node => node

def instAll (place : Place) : List Node → List Node
  | [] => []
  | node :: nodes => node.inst place :: instAll place nodes

def instOption (place : Place) : Option Node → Option Node
  | none => none
  | some node => some (node.inst place)

def instList (place : Place) : Option (List Node) → Option (List Node)
  | none => none
  | some nodes => some (instAll place nodes)

def instBound (place : Place) : Dimension Node → Dimension Node
  | .size n => .size n
  | .expression e => .expression (e.inst place)

def instSpec (place : Place) : ExceptionSpec Node → ExceptionSpec Node
  | .noexcept condition => .noexcept (instOption place condition)
  | .throwing types => .throwing (instAll place types)

def instOptionSpec (place : Place) : Option (ExceptionSpec Node) → Option (ExceptionSpec Node)
  | none => none
  | some spec => some (instSpec place spec)

def instSignature (place : Place) : Option (Signature Node) → Option (Signature Node)
  | none => none
  | some ⟨returnType, parameters, cv, ref⟩ =>
    some ⟨instOption place returnType, instAll place parameters, cv, ref⟩

end

section
variable (place : Place)

theorem instAll_eq (nodes : List Node) : instAll place nodes = nodes.map (·.inst place) := by
  induction nodes with
  | nil => rfl
  | cons node nodes ih => simp [instAll,ih]

theorem instOption_eq (node : Option Node) : instOption place node = node.map (·.inst place) := by
  cases node <;> rfl

theorem instList_eq (nodes : Option (List Node)) :
    instList place nodes = nodes.map (·.map (·.inst place)) := by
  cases nodes <;> simp [instList,instAll_eq]

theorem instBound_eq (bound : Dimension Node) :
    instBound place bound = bound.map (·.inst place) := by
  cases bound <;> rfl

theorem instSpec_eq (spec : ExceptionSpec Node) :
    instSpec place spec = spec.map (·.inst place) := by
  cases spec <;> simp [instSpec,instAll_eq,instOption_eq,ExceptionSpec.map]

theorem instOptionSpec_eq (spec : Option (ExceptionSpec Node)) :
    instOptionSpec place spec = spec.map (·.map (·.inst place)) := by
  cases spec <;> simp [instOptionSpec,instSpec_eq]

theorem instSignature_eq (s : Option (Signature Node)) :
    instSignature place s = s.map (·.map (·.inst place)) := by
  cases s <;> simp [instSignature,instAll_eq,instOption_eq,Signature.map]

theorem inst_eq_map {node : Node} (h : node.KeepsPlace) :
    node.inst place = node.map (·.inst place) := by
  cases node with
  | templateParam => exact h.elim
  | packExpansion => exact h.elim
  | packExpansionExpression => exact h.elim
  | encoding => exact h.elim
  | localName => exact h.elim
  | closureTypeName => exact h.elim
  | arrayType element bound => cases bound <;> simp [inst,map,instBound_eq]
  | _ =>
    simp [inst,map,instAll_eq,instOption_eq,instList_eq,instBound_eq,instSpec_eq,instOptionSpec_eq,
      FunctionType.map,Signature.map]

theorem inst_encoding (e : Encoding Node) :
    (encoding e).inst place = encoding (e.map (·.inst (place.enter (templateArgsOf e.name)))) := by
  simp [inst,Encoding.map,instSignature_eq]

theorem inst_localName (function : Encoding Node) (entity : Node) :
    (localName function entity).inst place =
      localName (function.map (·.inst (place.enter (templateArgsOf function.name))))
        (entity.inst (place.enter (templateArgsOf function.name))) := by
  simp [inst,Encoding.map,instSignature_eq]

theorem inst_closureTypeName (parameters : List Node) (number : Nat) :
    (closureTypeName parameters number).inst place =
      closureTypeName (parameters.map (·.inst { place with inClosure := true })) number := by
  simp [inst,instAll_eq]

theorem inst_pattern {node pattern : Node} {size : Nat} (hnode : node.pattern? = some pattern)
    (hsize : packCount place pattern = some size) :
    node.inst place = templateArgPack
      ((List.range size).map fun i => pattern.inst { place with packIndex := some i }) := by
  cases node <;> cases hnode <;> simp [inst,hsize]

end

end Node

end MangledNames
