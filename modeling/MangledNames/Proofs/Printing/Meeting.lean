import Mathlib.Logic.Relation
import MangledNames.Proofs.Printing.Instance
import MangledNames.Printing.Halves
set_option autoImplicit false

/-!
What is met while a node is printed, and where. Parameters that are met can be replaced by what they
stand for when each of them has an argument.
-/

namespace MangledNames

/-- What the options leave of a function or of data. -/
def Encoding.printed (config : Config) (e : Encoding Node) : List Node :=
  e.name :: (e.signature.map fun s =>
    (if config.omitReturnType then [] else s.returnType.toList) ++
      if config.omitParameterList then [] else s.parameters).getD []

namespace Printing

/-- The parts of a node that are printed, each with its place. -/
def parts (config : Config) (place : Place) : Node → List (Place × Node)
  | .encoding e => (e.printed config).map (place.enter (templateArgsOf e.name), ·)
  | .localName function entity =>
    [(place, .encoding function), (place.enter (templateArgsOf function.name), entity)]
  | .closureTypeName parameters _ => parameters.map ({ place with inClosure := true }, ·)
  | .packExpansion pattern | .packExpansionExpression pattern =>
    (List.range ((packCount place pattern).getD 0)).map fun i =>
      ({ place with packIndex := some i }, pattern)
  | node => node.printed.map (place, ·)

/-- What is met while a node is printed at a place. -/
def Met (config : Config) : Place × Node → Place × Node → Prop :=
  Relation.ReflTransGen fun whole part => part ∈ parts config whole.1 whole.2

/-- Whatever is on the sheet, printing the node adds to it. -/
def Shows (config : Config) (place : Place) (node : Node) : Prop :=
  ∀ n before after, (Halves.levels config n).print place node before = .ok () after →
    after.output.mark ≠ before.output.mark

/-- Printing does not depend on a parameter at hand: it stands for something without parameters, and
so does each copy of a pattern. -/
def Resolved (config : Config) (place : Place) : Node → Prop
  | .templateParam index =>
    ∃ argument scopes, resolve place index = .ok (argument, scopes) ∧ argument.Ground
  | .packExpansion pattern | .packExpansionExpression pattern =>
    ∃ size, packCount place pattern = some size ∧
      ∀ i < size, Shows config { place with packIndex := some i } pattern
  | .integerLiteral type _ | .floatLiteral type _ => ∀ index, type ≠ .templateParam index
  | _ => True

/-- Everything that is met while a node is printed is resolved. -/
def Resolves (config : Config) (place : Place) (node : Node) : Prop :=
  ∀ spot, Met config (place, node) spot → Resolved config spot.1 spot.2

section
variable {config : Config} {place : Place} {node part : Node}

theorem Resolves.self (h : Resolves config place node) : Resolved config place node :=
  h _ .refl

theorem Resolves.of_parts {place' : Place} (h : Resolves config place node)
    (hpart : (place', part) ∈ parts config place node) : Resolves config place' part :=
  fun spot hspot => h spot (.head hpart hspot)

theorem parts_of_keepsPlace (h : node.KeepsPlace) :
    parts config place node = node.printed.map (place, ·) := by
  cases node <;> first | rfl | exact h.elim

theorem Resolves.printed (h : Resolves config place node) (hpart : part ∈ node.printed) :
    Resolves config place part := by
  by_cases hkeeps : node.KeepsPlace
  · refine h.of_parts ?_
    rw [parts_of_keepsPlace hkeeps]
    exact List.mem_map_of_mem hpart
  · cases node <;> first | exact absurd trivial hkeeps | cases hpart

end

/-- What a node comes to where it is printed: its instance, or itself if it has no parameters. -/
inductive Renders (config : Config) (place : Place) (node : Node) : Node → Prop
  | inst : Resolves config place node → Renders config place node (node.inst place)
  | ground : node.Ground → Renders config place node node

namespace Renders

variable {config : Config} {place : Place} {node node' : Node}

theorem printed_ground {part : Node} (h : node.Ground) (hpart : part ∈ node.printed) :
    part.Ground := by
  rcases Node.children_of_printed hpart with hchild | ⟨group,hgroup,_,hchild⟩
  · exact h.child hchild
  · exact (h.child hgroup).child hchild

theorem keepsPlace (h : Renders config place node node') (hkeeps : node.KeepsPlace) :
    ∃ f, node' = node.map f ∧ ∀ part ∈ node.printed, Renders config place part (f part) := by
  cases h with
  | inst h =>
    exact ⟨(·.inst place),node.inst_eq_map place hkeeps,fun part hpart => .inst (h.printed hpart)⟩
  | ground h =>
    exact ⟨fun part => part,node.map_same.symm,fun part hpart => .ground (printed_ground h hpart)⟩

theorem encoding {e : Encoding Node} (h : Renders config place (.encoding e) node') :
    ∃ f, node' = .encoding (e.map f) ∧
      ∀ part ∈ e.printed config, Renders config (place.enter (templateArgsOf e.name)) part
      (f part) := by
  cases h with
  | inst h =>
    refine ⟨_,Node.inst_encoding place e,fun part hpart => .inst (h.of_parts ?_)⟩
    exact List.mem_map_of_mem hpart
  | ground h =>
    refine ⟨fun part => part,by rw [Encoding.map_same],fun part hpart => .ground ?_⟩
    rcases List.mem_cons.mp hpart with rfl | hpart
    · exact h.child (by simp [Node.children,Node.fields])
    · cases hs : e.signature with
      | none => simp [hs] at hpart
      | some s =>
        have hsignature : (Node.signature s).Ground :=
          h.child (by simp [Node.children,Node.fields,hs])
        refine hsignature.child ?_
        simp only [hs,Option.map_some,Option.getD_some,List.mem_append] at hpart
        rcases hpart with hpart | hpart
        · cases hreturn : config.omitReturnType <;> simp [hreturn] at hpart
          simp [Node.children,Node.fields,hpart]
        · cases hparameters : config.omitParameterList <;> simp [hparameters] at hpart
          simp [Node.children,Node.fields,hpart]

theorem localName {function : Encoding Node} {entity : Node}
    (h : Renders config place (.localName function entity) node') :
    ∃ function' entity', node' = .localName function' entity' ∧
      Renders config place (.encoding function) (.encoding function') ∧
      Renders config (place.enter (templateArgsOf function.name)) entity entity' := by
  cases h with
  | inst h =>
    refine ⟨_,_,Node.inst_localName place function entity,?_,.inst (h.of_parts (.tail _ (.head _)))⟩
    rw [← Node.inst_encoding]
    exact .inst (h.of_parts (.head _))
  | ground h =>
    refine ⟨function,entity,rfl,.ground (h.child ?_),.ground (h.child ?_)⟩
    · simp [Node.children,Node.fields]
    · simp [Node.children,Node.fields]

theorem closureTypeName {parameters : List Node} {number : Nat}
    (h : Renders config place (.closureTypeName parameters number) node') :
    ∃ f, node' = .closureTypeName (parameters.map f) number ∧
      ∀ part ∈ parameters, Renders config { place with inClosure := true } part (f part) := by
  cases h with
  | inst h =>
    refine ⟨_,Node.inst_closureTypeName place parameters number,fun part hpart =>
      .inst (h.of_parts ?_)⟩
    exact List.mem_map_of_mem hpart
  | ground h =>
    refine ⟨fun part => part,by simp,fun part hpart => .ground (h.child ?_)⟩
    simpa [Node.children,Node.fields] using hpart

theorem param {index : Nat} (h : Renders config place (.templateParam index) node') :
    node'.Ground ∧ ∃ scopes, resolve place index = .ok (node',scopes) := by
  cases h with
  | inst h =>
    obtain ⟨argument,scopes,hresolve,hground⟩ := h.self
    have hinst : (Node.templateParam index).inst place = argument := by simp [Node.inst,hresolve]
    rw [hinst]
    exact ⟨hground,scopes,hresolve⟩
  | ground h => exact absurd h (Node.not_ground_param index)

theorem literalType {type : Node} (h : Renders config place node node')
    (hnode : node.literalType? = some type) (index : Nat) : type ≠ .templateParam index := by
  cases h with
  | inst h => cases node <;> cases hnode <;> exact h.self index
  | ground h =>
    rintro rfl
    refine Node.not_ground_param index (printed_ground h ?_)
    cases node <;> cases hnode <;> exact .head _

theorem pattern {pattern : Node} (h : Renders config place node node')
    (hnode : node.pattern? = some pattern) :
    node' = node ∧ node.Ground ∨
      ∃ size, packCount place pattern = some size ∧
        node' = .templateArgPack
          ((List.range size).map fun i => pattern.inst { place with packIndex := some i }) ∧
        ∀ i < size, Resolves config { place with packIndex := some i } pattern ∧
          Shows config { place with packIndex := some i } pattern := by
  cases h with
  | ground h => exact .inl ⟨rfl,h⟩
  | inst h =>
    have hresolved : ∃ size, packCount place pattern = some size ∧
        ∀ i < size, Shows config { place with packIndex := some i } pattern := by
      cases node <;> cases hnode <;> exact h.self
    obtain ⟨size,hsize,hshows⟩ := hresolved
    refine .inr ⟨size,hsize,Node.inst_pattern place hnode hsize,fun i hi =>
      ⟨h.of_parts ?_,hshows i hi⟩⟩
    cases node <;> cases hnode <;> simp [parts,hsize,hi]

end Renders

/-- Nodes that no type is made of. -/
def Apart : Node → Prop
  | .encoding _ | .localName _ _ | .closureTypeName _ _ | .packExpansion _
  | .packExpansionExpression _ | .templateArgPack _ => True
  | _ => False

/-- How a node comes to another one. -/
inductive Renders.View (config : Config) (place : Place) : Node → Node → Prop
  | param {index : Nat} {scopes : Scopes} {found : Node} :
    resolve place index = .ok (found,scopes) → found.Ground →
    Renders.View config place (.templateParam index) found
  | kept {node : Node} {f : Node → Node} : node.KeepsPlace →
    (∀ part ∈ node.printed, Renders config place part (f part)) →
    Renders.View config place node (node.map f)
  | apart {node node' : Node} : Apart node → Apart node' → Renders.View config place node node'

theorem Renders.view {config : Config} {place : Place} {node node' : Node}
    (h : Renders config place node node') : Renders.View config place node node' := by
  have expanded : ∀ pattern, node.pattern? = some pattern → Apart node → Apart node' := by
    intro pattern hnode hapart
    rcases h.pattern hnode with ⟨rfl,_⟩ | ⟨_,_,rfl,_⟩
    · exact hapart
    · trivial
  have kept : node.KeepsPlace → Renders.View config place node node' := by
    intro hkeeps
    obtain ⟨f,rfl,hparts⟩ := h.keepsPlace hkeeps
    exact .kept hkeeps hparts
  cases node with
  | templateParam index =>
    obtain ⟨hground,scopes,hresolve⟩ := h.param
    exact .param hresolve hground
  | encoding e =>
    obtain ⟨f,rfl,_⟩ := h.encoding
    exact .apart trivial trivial
  | localName function entity =>
    obtain ⟨function',entity',rfl,_⟩ := h.localName
    exact .apart trivial trivial
  | closureTypeName parameters number =>
    obtain ⟨f,rfl,_⟩ := h.closureTypeName
    exact .apart trivial trivial
  | packExpansion pattern => exact .apart trivial (expanded pattern rfl trivial)
  | packExpansionExpression pattern => exact .apart trivial (expanded pattern rfl trivial)
  | _ => exact kept trivial

end Printing

end MangledNames
