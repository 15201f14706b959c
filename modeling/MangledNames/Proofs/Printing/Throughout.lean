import MangledNames.Proofs.Printing.Questions
import MangledNames.Proofs.Printing.Sound
set_option autoImplicit false

/-!
What holds throughout a tree and the arguments in scope, holds throughout what parameters stand for
and inside further lists of arguments.
-/

namespace MangledNames.Printing

/-- All arguments in scope have a property throughout. -/
def ScopesThroughout (p : Node → Prop) (scopes : Scopes) : Prop :=
  ∀ arguments ∈ scopes, ∀ node ∈ arguments, node.Throughout p

section
variable {p : Node → Prop}

theorem scopesThroughout_cons {arguments : List Node} {outer : Scopes} :
    ScopesThroughout p (arguments :: outer) ↔
      (∀ node ∈ arguments, node.Throughout p) ∧ ScopesThroughout p outer := by
  simp [ScopesThroughout]

theorem element_throughout {packIndex : Option Nat} {index : Nat} {argument found : Node}
    (h : argument.Throughout p) (hfound : element packIndex index argument = .ok found) :
    found.Throughout p := by
  unfold element at hfound
  split at hfound
  · split at hfound
    · rename_i hargument
      cases hfound
      exact h.printed (List.mem_of_getElem? hargument)
    · cases hfound
  · cases hfound
    exact h

theorem resolve_throughout {place : Place} (h : ScopesThroughout p place.scopes) {index : Nat}
    {node : Node} {scopes : Scopes} (hfound : resolve place index = .ok (node,scopes)) :
    node.Throughout p ∧ ScopesThroughout p scopes := by
  obtain ⟨arguments,argument,hscopes,hargument,helement⟩ := resolve_ok hfound
  rw [hscopes,scopesThroughout_cons] at h
  exact ⟨element_throughout (h.1 _ (List.mem_of_getElem? hargument)) helement,h.2⟩

theorem templateArgsOf_throughout {node : Node} (h : node.Throughout p) {arguments : List Node}
    (hfound : templateArgsOf node = some arguments) : ∀ node ∈ arguments, node.Throughout p := by
  fun_induction templateArgsOf node with
  | case1 name arguments =>
    cases hfound
    exact fun node hnode => h.printed (.tail _ hnode)
  | case2 scope name ih => exact ih (h.printed (.tail _ (.head _))) hfound
  | case3 name tags ih => exact ih (h.printed (.head _)) hfound
  | case4 function entity found hentity ih =>
    exact ih (h.child (by simp [Node.children,Node.fields])) (hentity.trans hfound)
  | case5 entity hentity name signature ih ih' =>
    have hfunction : (Node.encoding ⟨name,signature⟩).Throughout p :=
      h.child (by simp [Node.children,Node.fields])
    exact ih' (hfunction.child (by simp [Node.children,Node.fields])) hfound
  | case6 => cases hfound

theorem enter_throughout {place : Place} (h : ScopesThroughout p place.scopes) {name : Node}
    (hname : name.Throughout p) :
    ScopesThroughout p (place.enter (templateArgsOf name)).scopes := by
  cases hfound : templateArgsOf name with
  | none => exact h
  | some arguments => exact scopesThroughout_cons.mpr ⟨templateArgsOf_throughout hname hfound,h⟩

end

end MangledNames.Printing
