import MangledNames.Proofs.Printing.Collapsing
import MangledNames.Proofs.Printing.Meeting
import MangledNames.Proofs.Printing.Throughout
set_option autoImplicit false

/-!
What is visited while a node is printed, and where: parts, what parameters stand for and references
come to, and patterns that stay patterns.
-/

namespace MangledNames.Printing

inductive Visits (config : Config) : Place × Node → Place × Node → Prop
  | part {place : Place} {node : Node} {spot : Place × Node} : spot ∈ parts config place node →
    Visits config (place,node) spot
  | argument {place : Place} {index : Nat} {argument : Node} {scopes : Scopes} :
    resolve place index = .ok (argument,scopes) →
    Visits config (place,.templateParam index)
      ({ place with scopes := scopes, packIndex := none },argument)
  | referent {place : Place} {referent : Node} {kind : ReferenceKind} {kinds : List ReferenceKind}
    {last : Spot} : Passes place.packIndex (place.scopes,referent) kinds last →
    Visits config (place,.referenceType referent kind) ({ place with scopes := last.1 },last.2)
  | pattern {place : Place} {node pattern : Node} : node.pattern? = some pattern →
    packCount place pattern = none → Visits config (place,node) (place,pattern)

abbrev Visited (config : Config) : Place × Node → Place × Node → Prop :=
  Relation.ReflTransGen (Visits config)

/-- The node and all arguments in scope have a property throughout. -/
structure ThroughoutAt (p : Node → Prop) (spot : Place × Node) : Prop where
  node : spot.2.Throughout p
  scopes : ScopesThroughout p spot.1.scopes

section
variable {p : Node → Prop} {config : Config} {place : Place}

theorem Passes.throughout {packIndex : Option Nat} {first last : Spot} {kinds : List ReferenceKind}
    (h : Passes packIndex first kinds last) (hscopes : ScopesThroughout p first.1)
    (hnode : first.2.Throughout p) : ScopesThroughout p last.1 ∧ last.2.Throughout p := by
  induction h with
  | here => exact ⟨hscopes,hnode⟩
  | reference _ ih => exact ih hscopes (hnode.printed (.head _))
  | argument hnext _ _ ih =>
    obtain ⟨hargument,hfound⟩ := hnext
    obtain ⟨harguments,houter⟩ := scopesThroughout_cons.mp hscopes
    exact ih houter (element_throughout (harguments _ (List.mem_of_getElem? hargument)) hfound)

theorem encoding_throughout {e : Encoding Node} (h : (Node.encoding e).Throughout p)
    (hscopes : ScopesThroughout p place.scopes) {part : Node} (hpart : part ∈ e.printed config) :
    ThroughoutAt p (place.enter (templateArgsOf e.name),part) := by
  have hname : e.name.Throughout p := h.child (by simp [Node.children,Node.fields])
  refine ⟨?_,enter_throughout hscopes hname⟩
  rcases List.mem_cons.mp hpart with rfl | hpart
  · exact hname
  · cases hs : e.signature with
    | none => simp [hs] at hpart
    | some s =>
      have hsignature : (Node.signature s).Throughout p :=
        h.child (by simp [Node.children,Node.fields,hs])
      refine hsignature.child ?_
      simp only [hs,Option.map_some,Option.getD_some,List.mem_append] at hpart
      rcases hpart with hpart | hpart
      · cases hreturn : config.omitReturnType <;> simp [hreturn] at hpart
        simp [Node.children,Node.fields,hpart]
      · cases hparameters : config.omitParameterList <;> simp [hparameters] at hpart
        simp [Node.children,Node.fields,hpart]

theorem pattern_throughout {node pattern : Node} (h : node.Throughout p)
    (hpattern : node.pattern? = some pattern) : pattern.Throughout p := by
  refine h.child ?_
  unfold Node.pattern? at hpattern
  split at hpattern <;> cases hpattern <;> simp [Node.children,Node.fields]

theorem parts_throughout {node : Node} {spot : Place × Node}
    (hspot : spot ∈ parts config place node) (h : ThroughoutAt p (place,node)) :
    ThroughoutAt p spot := by
  obtain ⟨hnode,hscopes⟩ := h
  by_cases hkeeps : node.KeepsPlace
  · rw [parts_of_keepsPlace hkeeps] at hspot
    obtain ⟨part,hpart,rfl⟩ := List.mem_map.mp hspot
    exact ⟨hnode.printed hpart,hscopes⟩
  cases node with
  | encoding e =>
    obtain ⟨part,hpart,rfl⟩ := List.mem_map.mp hspot
    exact encoding_throughout hnode hscopes hpart
  | localName function entity =>
    have hfunction : (Node.encoding function).Throughout p :=
      hnode.child (by simp [Node.children,Node.fields])
    have hname : function.name.Throughout p := hfunction.child (by simp [Node.children,Node.fields])
    have hentity : entity.Throughout p := hnode.child (by simp [Node.children,Node.fields])
    rcases List.mem_pair.mp hspot with rfl | rfl
    · exact ⟨hfunction,hscopes⟩
    · exact ⟨hentity,enter_throughout hscopes hname⟩
  | closureTypeName parameters number =>
    obtain ⟨part,hpart,rfl⟩ := List.mem_map.mp hspot
    exact ⟨hnode.child (by simpa [Node.children,Node.fields] using hpart),hscopes⟩
  | packExpansion inner =>
    obtain ⟨i,_,rfl⟩ := List.mem_map.mp hspot
    exact ⟨pattern_throughout hnode rfl,hscopes⟩
  | packExpansionExpression inner =>
    obtain ⟨i,_,rfl⟩ := List.mem_map.mp hspot
    exact ⟨pattern_throughout hnode rfl,hscopes⟩
  | templateParam index => cases hspot
  | _ => exact absurd trivial hkeeps

/-- What holds throughout a node and its scopes, holds of what is visited next. -/
theorem visits_throughout {whole spot : Place × Node} (hvisits : Visits config whole spot)
    (h : ThroughoutAt p whole) : ThroughoutAt p spot := by
  cases hvisits with
  | part hspot => exact parts_throughout hspot h
  | argument hresolve =>
    obtain ⟨hargument,hscopes⟩ := resolve_throughout h.scopes hresolve
    exact ⟨hargument,hscopes⟩
  | referent hpasses =>
    obtain ⟨hscopes,hreferent⟩ := hpasses.throughout h.scopes (h.node.printed (.head _))
    exact ⟨hreferent,hscopes⟩
  | pattern hpattern _ => exact ⟨pattern_throughout h.node hpattern,h.scopes⟩

theorem visited_throughout {whole spot : Place × Node} (hvisited : Visited config whole spot)
    (h : ThroughoutAt p whole) : ThroughoutAt p spot := by
  induction hvisited with
  | refl => exact h
  | tail _ hvisits ih => exact visits_throughout hvisits ih

end

/-- All that is visited while a node is printed has a property. -/
def Everywhere (config : Config) (p : Place × Node → Prop) (spot : Place × Node) : Prop :=
  ∀ visited, Visited config spot visited → p visited

namespace Everywhere

variable {config : Config} {p : Place × Node → Prop} {spot visited : Place × Node}
  {place place' : Place} {node inner : Node}

theorem self (h : Everywhere config p spot) : p spot := h _ .refl

theorem visits (h : Everywhere config p spot) (hvisits : Visits config spot visited) :
    Everywhere config p visited := fun _ hvisited => h _ (.head hvisits hvisited)

theorem part (h : Everywhere config p (place,node))
    (hpart : (place',inner) ∈ parts config place node) :
    Everywhere config p (place',inner) := h.visits (.part hpart)

theorem printed (h : Everywhere config p (place,node)) (hpart : inner ∈ node.printed) :
    Everywhere config p (place,inner) := by
  by_cases hkeeps : node.KeepsPlace
  · refine h.part ?_
    rw [parts_of_keepsPlace hkeeps]
    exact List.mem_map_of_mem hpart
  · cases node <;> first | exact absurd trivial hkeeps | cases hpart

theorem sourceName {name : String} (h : p (place,.sourceName name)) :
    Everywhere config p (place,.sourceName name) := by
  intro visited hvisited
  cases hvisited.cases_head with
  | inl hsame => exact hsame ▸ h
  | inr hmore =>
    obtain ⟨next,hvisits,_⟩ := hmore
    cases hvisits with
    | part hpart => cases hpart
    | pattern hpattern _ => cases hpattern

end Everywhere

end MangledNames.Printing
