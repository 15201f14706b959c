import MangledNames.Proofs.Printing.Brackets
import MangledNames.Proofs.Printing.DeclaredTypes
import MangledNames.Proofs.Printing.Questions
set_option autoImplicit false

/-!
The way on which references are collapsed: through references that directly follow each other, and
from a parameter to the reference that it stands for.
-/

namespace MangledNames.Printing

theorem ofExcept_ok {α : Type} {found : Except DemangleError α} {a : α} {s t : Sheet}
    (h : ofExcept found s = .ok a t) : found = .ok a ∧ t = s := by
  cases found with
  | ok b =>
    cases h
    exact ⟨rfl,rfl⟩
  | error error => cases h

theorem isReference_eq_false {node : Node}
    (h : ∀ referent kind, node = .referenceType referent kind → False) :
    isReference node = false := by
  unfold isReference
  split
  · exact (h _ _ rfl).elim
  · rfl

abbrev Spot := Scopes × Node

/-- A parameter stands for an argument, or for the element of it that is being expanded. What that
refers to is one scope further out. -/
inductive StandsFor (packIndex : Option Nat) : Spot → Spot → Prop
  | argument {arguments : List Node} {outer : Scopes} {index : Nat} {argument found : Node} :
    arguments[index]? = some argument → element packIndex index argument = .ok found →
    StandsFor packIndex (arguments :: outer,.templateParam index) (outer,found)

theorem StandsFor.unique {packIndex : Option Nat} {first next next' : Spot}
    (h : StandsFor packIndex first next) (h' : StandsFor packIndex first next') : next = next' := by
  obtain ⟨hargument,hfound⟩ := h
  obtain ⟨hargument',hfound'⟩ := h'
  cases hargument.symm.trans hargument'
  cases hfound.symm.trans hfound'
  rfl

theorem resolve_standsFor {place : Place} {index : Nat} {found : Node} {outer : Scopes}
    (h : resolve place index = .ok (found,outer)) :
    StandsFor place.packIndex (place.scopes,.templateParam index) (outer,found) := by
  obtain ⟨arguments,argument,hscopes,hargument,hfound⟩ := resolve_ok h
  rw [hscopes]
  exact .argument hargument hfound

/-- The way through references of these kinds. Parameters on it stand for references. -/
inductive Passes (packIndex : Option Nat) : Spot → List ReferenceKind → Spot → Prop
  | here (spot : Spot) : Passes packIndex spot [] spot
  | reference {scopes : Scopes} {referent : Node} {kind : ReferenceKind}
    {kinds : List ReferenceKind} {last : Spot} : Passes packIndex (scopes,referent) kinds last →
    Passes packIndex (scopes,.referenceType referent kind) (kind :: kinds) last
  | argument {first next last : Spot} {kinds : List ReferenceKind} :
    StandsFor packIndex first next →
    isReference next.2 = true → Passes packIndex next kinds last → Passes packIndex first kinds last

/-- What a reference of a kind to a node comes to: all references on the way count, and the way ends
where neither a reference stands nor a parameter for one. -/
structure Collapses (packIndex : Option Nat) (first : Spot) (kind : ReferenceKind) (c : Collapsed) :
    Prop where
  way : ∃ kinds, Passes packIndex first kinds (c.scopes,c.referent) ∧
    c.kind = kinds.foldl .collapse kind
  referent : isReference c.referent = false
  parameter : ∀ next, StandsFor packIndex (c.scopes,c.referent) next → isReference next.2 = false

section
variable {config : Config} {packIndex : Option Nat} {s t : Sheet} {c : Collapsed}

theorem collapseWithin_ok {scopes : Scopes} {parameter : ReferenceKind → Nat → Printer Collapsed}
    (hparameter : ∀ kind index s t, parameter kind index s = .ok c t →
      t.output = s.output ∧ Collapses packIndex (scopes,.templateParam index) kind c)
    {kind : ReferenceKind} {node : Node}
    (hrun : collapseWithin config scopes parameter kind node s = .ok c t) :
    t.output = s.output ∧ Collapses packIndex (scopes,node) kind c := by
  fun_induction collapseWithin config scopes parameter kind node generalizing s with
  | case1 kind referent inner ih =>
    obtain ⟨_,s',hstep,hreferent⟩ := bind_ok hrun
    obtain ⟨houtput,hc⟩ := ih hreferent
    obtain ⟨kinds,hway,hkind⟩ := hc.way
    exact ⟨houtput.trans (step_ok hstep),⟨_,.reference hway,hkind⟩,hc.referent,hc.parameter⟩
  | case2 kind index =>
    obtain ⟨_,s',hstep,hparam⟩ := bind_ok hrun
    obtain ⟨houtput,hc⟩ := hparameter kind index s' t hparam
    exact ⟨houtput.trans (step_ok hstep),hc⟩
  | case3 kind node hreference hparam =>
    obtain ⟨_,s',hstep,hlast⟩ := bind_ok hrun
    cases hlast
    refine ⟨step_ok hstep,⟨[],.here _,rfl⟩,isReference_eq_false hreference,?_⟩
    rintro _ ⟨_⟩
    exact absurd rfl (hparam _)

theorem collapseIn_ok {scopes : Scopes} {kind : ReferenceKind} {node : Node}
    (hrun : collapseIn config packIndex scopes kind node s = .ok c t) :
    t.output = s.output ∧ Collapses packIndex (scopes,node) kind c := by
  induction scopes generalizing kind node s t with
  | nil =>
    refine collapseWithin_ok (fun kind index s t hparam => ?_) hrun
    cases hparam
    exact ⟨rfl,⟨[],.here _,rfl⟩,rfl,nofun⟩
  | cons arguments outer ih =>
    refine collapseWithin_ok (fun kind index s t hparam => ?_) hrun
    cases hargument : arguments[index]? with
    | none =>
      rw [hargument] at hparam
      cases hparam
      refine ⟨rfl,⟨[],.here _,rfl⟩,rfl,?_⟩
      rintro _ ⟨hargument',_⟩
      exact absurd (hargument.symm.trans hargument') nofun
    | some argument =>
      rw [hargument] at hparam
      obtain ⟨found,s',helement,hfound⟩ := bind_ok hparam
      obtain ⟨hresult,rfl⟩ := ofExcept_ok helement
      split at hfound
      · obtain ⟨houtput,hc⟩ := ih hfound
        obtain ⟨kinds,hway,hkind⟩ := hc.way
        refine ⟨houtput,⟨kinds,.argument ?_ rfl hway,hkind⟩,hc.referent,hc.parameter⟩
        exact .argument hargument hresult
      · rename_i hreference
        cases hfound
        refine ⟨rfl,⟨[],.here _,rfl⟩,rfl,fun next hnext => ?_⟩
        cases hnext.unique (.argument hargument hresult)
        exact isReference_eq_false hreference

/-- Collapsing only looks at types, and stops at the end of the way. -/
theorem collapse_ok {place : Place} {kind : ReferenceKind} {node : Node}
    (hrun : collapse config place node kind s = .ok c t) :
    t.output = s.output ∧ Collapses place.packIndex (place.scopes,node) kind c :=
  collapseIn_ok hrun

end

end MangledNames.Printing
