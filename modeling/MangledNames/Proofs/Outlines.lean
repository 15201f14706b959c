import Mathlib.Data.List.Forall2
import MangledNames.Outline
set_option autoImplicit false

/-!
Outlines show the first nodes of a tree from top to bottom: which lines there are, and which of
the others they leave out.
-/

namespace MangledNames

namespace Node

end Node

namespace Outline

/-- A node where it is used. Its place says, from the node upwards, which child of its parent each
node is. -/
structure Spot where
  place : List Nat
  label : String
  node : Node

mutual

/-- Where the nodes of a tree are used, from top to bottom. -/
def walk (place : List Nat) (label : String) (node : Node) : List Spot :=
  ⟨place,label,node⟩ :: walkBelow place 0 node.labelledChildren
  termination_by (node.weight, 0)
  decreasing_by
    have := node.totalWeight_children_lt
    rw [Node.map_snd_labelledChildren]
    exact Prod.Lex.left _ _ this

/-- Where the nodes of trees are used that are children of one place, from the given index on. -/
def walkBelow (place : List Nat) (index : Nat) (nodes : List (String × Node)) : List Spot :=
  match nodes with
  | [] => []
  | (label, node) :: nodes =>
    walk (index :: place) label node ++ walkBelow place (index + 1) nodes
  termination_by (Node.totalWeight (nodes.map Prod.snd), 1)
  decreasing_by
    · simp only [Prod.lex_def,List.map_cons,Node.totalWeight]
      omega
    · have := node.weight_pos
      simp only [Prod.lex_def,List.map_cons,Node.totalWeight]
      omega

end

/-- What a line is about: a node at its place, or only that one was left out there. -/
structure Entry where
  place : List Nat
  item : Option (String × Node)

def Spot.listed (spot : Spot) : Entry := ⟨spot.place,some (spot.label,spot.node)⟩

mutual

def entries (place : List Nat) : Outline → List Entry
  | omitted => [⟨place,none⟩]
  | item label node children => ⟨place,some (label,node)⟩ :: entriesBelow place 0 children

def entriesBelow (place : List Nat) (index : Nat) : List Outline → List Entry
  | [] => []
  | outline :: outlines =>
    outline.entries (index :: place) ++ entriesBelow place (index + 1) outlines

end

section
variable {left : Nat} {top top' : Spot → Bool} {spots first others : List Spot}

end

def Entry.text (entry : Entry) : String :=
  match entry.item with
  | none => "..."
  | some (label,node) => heading label node

/-- What stands before a line so many levels deep: four signs for each level. -/
structure IsBranch (depth : Nat) (branch : String) : Prop where
  length : branch.length = 4 * depth
  signs : ∀ c ∈ branch.toList, c ∈ ['│','├','└','─',' ']

theorem IsBranch.append {n k : Nat} {a b : String} (ha : IsBranch n a) (hb : IsBranch k b) :
    IsBranch (n + k) (a ++ b) := by
  refine ⟨by rw [String.length_append,ha.length,hb.length,Nat.mul_add],fun c hc => ?_⟩
  rw [String.toList_append,List.mem_append] at hc
  exact hc.elim (ha.signs c) (hb.signs c)

end Outline

end MangledNames
