import MangledNames.Node.Weight
import MangledNames.Printing.Printer
set_option autoImplicit false

/-!
What template parameters stand for, and what can be seen of a type through them: whether it is an
array or a function, whether it has a right half, which reference it comes to, and how large the
packs of a pattern are.
-/

namespace MangledNames.Printing

abbrev Scopes := List (List Node)

structure Place where
  scopes : Scopes := []
  packIndex : Option Nat := none
  inClosure : Bool := false

namespace Place

def argument? (place : Place) (index : Nat) : Option Node :=
  place.scopes.head?.bind (·[index]?)

def enter (place : Place) : Option (List Node) → Place
  | none => place
  | some arguments => { place with scopes := arguments :: place.scopes }

end Place

def element (packIndex : Option Nat) (index : Nat) (argument : Node) :
    Except DemangleError Node :=
  match argument, packIndex with
  | .templateArgPack arguments, some i =>
    match arguments[i]? with
    | some argument => .ok argument
    | none => .error (.badTemplateParamReference index)
  | argument, _ => .ok argument

/-- What a parameter stands for, and the scopes in which that was written. -/
def resolve (place : Place) (index : Nat) : Except DemangleError (Node × Scopes) :=
  match place.scopes with
  | [] => .error (.badTemplateParamReference index)
  | arguments :: outer =>
    match arguments[index]? with
    | none => .error (.badTemplateParamReference index)
    | some argument => (·, outer) <$> element place.packIndex index argument

def ofExcept {α : Type} : Except DemangleError α → Printer α
  | .ok a => pure a
  | .error error => fail error

def unqualified : Node → Node
  | .qualifiedType inner _ => unqualified inner
  | .vendorQualifiedType inner _ _ => unqualified inner
  | node => node

/-- A type seen through qualifiers and template parameters. Each parameter leads one scope
outwards, so the way ends. -/
def seenThrough (packIndex : Option Nat) : Scopes → Node → Except DemangleError Node
  | [], node => .ok (unqualified node)
  | arguments :: outer, node =>
    match unqualified node with
    | .templateParam index =>
      match arguments[index]? with
      | none => .ok (.templateParam index)
      | some argument => do seenThrough packIndex outer (← element packIndex index argument)
    | node => .ok node

def isArray : Node → Bool
  | .arrayType _ _ => true
  | _ => false

def isFunction : Node → Bool
  | .functionType _ => true
  | _ => false

def hasArray (place : Place) (node : Node) : Except DemangleError Bool :=
  isArray <$> seenThrough place.packIndex place.scopes node

def hasFunction (place : Place) (node : Node) : Except DemangleError Bool :=
  isFunction <$> seenThrough place.packIndex place.scopes node

def needsParentheses (place : Place) (node : Node) : Except DemangleError Bool := do
  if ← hasArray place node then return true
  hasFunction place node

def hasRightSideWithin (config : Config) (parameter : Nat → Printer Bool) : Node → Printer Bool
  | .qualifiedType inner _ => hasRightSideWithin config parameter inner
  | .vendorQualifiedType inner _ _ => hasRightSideWithin config parameter inner
  | .templateParam index => parameter index
  | .arrayType _ _ => return true
  | .functionType _ => return true
  | .pointerType inner => do
    step config
    hasRightSideWithin config parameter inner
  | .referenceType inner _ => do
    step config
    hasRightSideWithin config parameter inner
  | .pointerToMemberType _ inner => do
    step config
    hasRightSideWithin config parameter inner
  | _ => return false

def hasRightSideIn (config : Config) (packIndex : Option Nat) : Scopes → Node → Printer Bool
  | [], node => hasRightSideWithin config (fun _ => return false) node
  | arguments :: outer, node =>
    hasRightSideWithin config (fun index =>
      match arguments[index]? with
      | none => return false
      | some argument => do
        hasRightSideIn config packIndex outer
          (← ofExcept (element packIndex index argument))) node

def hasRightSide (config : Config) (place : Place) (node : Node) : Printer Bool := do
  step config
  hasRightSideIn config place.packIndex place.scopes node

structure Collapsed where
  kind : ReferenceKind
  referent : Node
  scopes : Scopes

/-- The references that directly follow each other, as far as one scope tells. -/
def collapseWithin (config : Config) (scopes : Scopes)
    (parameter : ReferenceKind → Nat → Printer Collapsed) (kind : ReferenceKind) :
    Node → Printer Collapsed
  | .referenceType referent inner => do
    step config
    collapseWithin config scopes parameter (kind.collapse inner) referent
  | .templateParam index => do
    step config
    parameter kind index
  | node => do
    step config
    return ⟨kind, node, scopes⟩

def collapseIn (config : Config) (packIndex : Option Nat) :
    Scopes → ReferenceKind → Node → Printer Collapsed
  | [], kind, node =>
    collapseWithin config [] (fun kind index => return ⟨kind, .templateParam index, []⟩) kind node
  | arguments :: outer, kind, node =>
    collapseWithin config (arguments :: outer) (fun kind index =>
      match arguments[index]? with
      | none => return ⟨kind, .templateParam index, arguments :: outer⟩
      | some argument => do
        match ← ofExcept (element packIndex index argument) with
        | .referenceType referent inner =>
          collapseIn config packIndex outer kind (.referenceType referent inner)
        | _ => return ⟨kind, .templateParam index, arguments :: outer⟩) kind node

/-- The single reference that a reference comes to: `T&&` where `T` is `int&` is `int&`. -/
def collapse (config : Config) (place : Place) (referent : Node) (kind : ReferenceKind) :
    Printer Collapsed :=
  collapseIn config place.packIndex place.scopes kind referent

def packSizeAmong (config : Config) (place : Place) : List Node → Printer (Option Nat)
  | [] => return none
  | node :: others => do
    step config
    match node with
    | .templateParam index =>
      match place.argument? index with
      | some (.templateArgPack arguments) => return some arguments.length
      | _ => packSizeAmong config place others
    | .packExpansion _ => packSizeAmong config place others
    | .packExpansionExpression _ => packSizeAmong config place others
    | node => packSizeAmong config place (node.children.reverse ++ others)
  termination_by nodes => Node.totalWeight nodes
  decreasing_by
    all_goals simp [Node.weight_pos,Node.totalWeight_children_lt]

/-- The size of a pack in a pattern, where the last child of a node is searched first. Expansions
inside the pattern have packs of their own. -/
def packSize (config : Config) (place : Place) (pattern : Node) : Printer (Option Nat) :=
  packSizeAmong config place [pattern]

/-- The list of arguments that the parameters in the signature of a function refer to. -/
def templateArgsOf : Node → Option (List Node)
  | .templateName _ arguments => some arguments
  | .nestedName _ name => templateArgsOf name
  | .abiTaggedName name _ => templateArgsOf name
  | .localName function entity =>
    match templateArgsOf entity with
    | some arguments => some arguments
    | none => match function with
      | ⟨name, _⟩ => templateArgsOf name
  | _ => none

end MangledNames.Printing
