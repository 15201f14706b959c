import MangledNames.Node.Weight
import MangledNames.Outline.Attribute
set_option autoImplicit false

/-!
Outlines of trees: a line for each node, with those of its children below it. A tree may be far
larger than its symbol, so an outline shows only so many nodes, the first ones from top to bottom.
-/

namespace MangledNames

def Field.labelledNodes (name : String) : Field → List (String × Node)
  | plain _ => []
  | child node => [(name, node)]
  | children nodes => nodes.zipIdx.map fun (node, index) => (s!"{name}[{index}]", node)

theorem Field.map_snd_labelledNodes (name : String) (field : Field) :
    (field.labelledNodes name).map Prod.snd = field.nodes := by
  cases field with
  | plain value => rfl
  | child node => rfl
  | children nodes =>
    rw [Field.labelledNodes, List.map_map]
    exact List.zipIdx_map_fst 0 nodes

namespace Node

def labelledChildren (node : Node) : List (String × Node) :=
  node.fields.flatMap fun (name, field) => field.labelledNodes name

theorem map_snd_labelledChildren (node : Node) :
    node.labelledChildren.map Prod.snd = node.children := by
  rw [labelledChildren, List.map_flatMap]
  simp only [Field.map_snd_labelledNodes]
  rfl

/-- The attributes of a node in order. A list without nodes is one of them. -/
def attributes (node : Node) : List (String × String) :=
  node.fields.filterMap fun (name, field) =>
    match field with
    | .plain value => some (name, value.outlineText)
    | .children [] => some (name, tupleText [])
    | _ => none

end Node

inductive Outline where
  | omitted
  | item (label : String) (node : Node) (children : List Outline)

namespace Outline

mutual

/-- The outline of a node if `left` nodes may be shown, and how many of them are not used up. -/
def ofNode (left : Nat) (label : String) (node : Node) : Outline × Nat :=
  match left with
  | 0 => (omitted, 0)
  | left + 1 =>
    let (children, left) := ofNodes left node.labelledChildren
    (item label node children, left)
  termination_by (node.weight, 0)
  decreasing_by
    have := node.totalWeight_children_lt
    rw [Node.map_snd_labelledChildren]
    exact Prod.Lex.left _ _ this

def ofNodes (left : Nat) (nodes : List (String × Node)) : List Outline × Nat :=
  match nodes with
  | [] => ([], left)
  | (label, node) :: nodes =>
    let (first, left) := ofNode left label node
    let (others, left) := ofNodes left nodes
    (first :: others, left)
  termination_by (Node.totalWeight (nodes.map Prod.snd), 1)
  decreasing_by
    · simp only [Prod.lex_def,List.map_cons,Node.totalWeight]
      omega
    · have := node.weight_pos
      simp only [Prod.lex_def,List.map_cons,Node.totalWeight]
      omega

end

def heading (label : String) (node : Node) : String :=
  " ".intercalate ((label ++ ": " ++ node.label)
    :: node.attributes.map fun (name, value) => name ++ "=" ++ value)

mutual

def lines (first others : String) : Outline → List String
  | omitted => [first ++ "..."]
  | item label node children => (first ++ heading label node) :: linesBelow others children

def linesBelow (before : String) : List Outline → List String
  | [] => []
  | outline :: outlines =>
    (if outlines.isEmpty then outline.lines (before ++ "└── ") (before ++ "    ")
      else outline.lines (before ++ "├── ") (before ++ "│   "))
      ++ linesBelow before outlines

end

end Outline

/-- The outline of a tree with at most so many nodes, as a branch under a line of its own. -/
def Node.outline (node : Node) (nodesMax : Int) : List String :=
  Outline.linesBelow "" [(Outline.ofNode nodesMax.toNat "tree" node).1]

end MangledNames
