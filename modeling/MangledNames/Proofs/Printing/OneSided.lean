import MangledNames.Proofs.Printing.Collapsing
set_option autoImplicit false

/-!
Types without a right half: where the question for one has the answer no, nothing is printed to the
right of what is declared.
-/

namespace MangledNames.Printing

/-- Nodes that have everything in their left half, whatever they are made of. -/
def LeftOnly : Node → Prop
  | .qualifiedType _ _ | .vendorQualifiedType _ _ _ | .templateParam _ | .arrayType _ _
  | .functionType _ | .pointerType _ | .referenceType _ _ | .pointerToMemberType _ _ => False
  | _ => True

/-- Types without arrays and functions at their core, seen through what parameters stand for. -/
inductive OneSided (packIndex : Option Nat) : Scopes → Node → Prop
  | qualifiedType {scopes : Scopes} {inner : Node} (cv : CvQualifiers) :
    OneSided packIndex scopes inner → OneSided packIndex scopes (.qualifiedType inner cv)
  | vendorQualifiedType {scopes : Scopes} {inner : Node} (qualifier : String)
    (arguments : Option (List Node)) : OneSided packIndex scopes inner →
    OneSided packIndex scopes (.vendorQualifiedType inner qualifier arguments)
  | pointerType {scopes : Scopes} {inner : Node} : OneSided packIndex scopes inner →
    OneSided packIndex scopes (.pointerType inner)
  | referenceType {scopes : Scopes} {inner : Node} (kind : ReferenceKind) :
    OneSided packIndex scopes inner → OneSided packIndex scopes (.referenceType inner kind)
  | pointerToMemberType {scopes : Scopes} {inner : Node} (classType : Node) :
    OneSided packIndex scopes inner →
    OneSided packIndex scopes (.pointerToMemberType classType inner)
  | unresolved {scopes : Scopes} {index : Nat} : (scopes.head?.bind (·[index]?)) = none →
    OneSided packIndex scopes (.templateParam index)
  | templateParam {scopes : Scopes} {index : Nat} {next : Spot} :
    StandsFor packIndex (scopes,.templateParam index) next → OneSided packIndex next.1 next.2 →
    OneSided packIndex scopes (.templateParam index)
  | leftOnly {scopes : Scopes} {node : Node} : LeftOnly node → OneSided packIndex scopes node

namespace OneSided

section
variable {packIndex : Option Nat} {scopes : Scopes} {node : Node}

theorem whole (h : OneSided packIndex scopes node) : OneSided none scopes node := by
  induction h with
  | qualifiedType cv _ ih => exact .qualifiedType cv ih
  | vendorQualifiedType qualifier arguments _ ih =>
    exact .vendorQualifiedType qualifier arguments ih
  | pointerType _ ih => exact .pointerType ih
  | referenceType kind _ ih => exact .referenceType kind ih
  | pointerToMemberType classType _ ih => exact .pointerToMemberType classType ih
  | unresolved hnone => exact .unresolved hnone
  | templateParam hnext _ ih =>
    cases hnext with
    | @argument _ _ _ argument found hargument hfound =>
      have hwhole : ∀ index, element none index argument = .ok argument := by
        intro index
        unfold element
        cases argument <;> rfl
      refine .templateParam (.argument hargument (hwhole _)) ?_
      unfold element at hfound
      split at hfound
      · exact .leftOnly trivial
      · cases hfound
        exact ih
  | leftOnly hnode => exact .leftOnly hnode

theorem standsFor {index : Nat} {next : Spot} (h : OneSided packIndex scopes (.templateParam index))
    (hnext : StandsFor packIndex (scopes,.templateParam index) next) :
    OneSided packIndex next.1 next.2 := by
  cases h with
  | unresolved hnone =>
    obtain ⟨hargument,_⟩ := hnext
    simp only [List.head?_cons,Option.bind_some,hargument] at hnone
    cases hnone
  | templateParam hnext' h =>
    cases hnext.unique hnext'
    exact h
  | leftOnly h => exact h.elim

theorem seenThrough {found : Node} (h : OneSided packIndex scopes node)
    (hfound : seenThrough packIndex scopes node = .ok found) :
    isArray found = false ∧ isFunction found = false := by
  have direct : ∀ {scopes : Scopes} {node : Node},
      Printing.seenThrough packIndex scopes node = .ok found → unqualified node = node →
      (∀ index, node ≠ .templateParam index) → isArray node = false → isFunction node = false →
      isArray found = false ∧ isFunction found = false := by
    intro scopes node hfound hunqualified hparam harray hfunction
    rw [seenThrough_eq (by rwa [hunqualified]),hunqualified] at hfound
    cases hfound
    exact ⟨harray,hfunction⟩
  induction h with
  | qualifiedType cv _ ih => exact ih (by rwa [seenThrough_qualifiedType] at hfound)
  | vendorQualifiedType qualifier arguments _ ih =>
    exact ih (by rwa [seenThrough_vendorQualifiedType] at hfound)
  | pointerType => exact direct hfound rfl (fun _ => nofun) rfl rfl
  | referenceType => exact direct hfound rfl (fun _ => nofun) rfl rfl
  | pointerToMemberType => exact direct hfound rfl (fun _ => nofun) rfl rfl
  | @unresolved scopes index hnone =>
    have hsame :
        Printing.seenThrough packIndex scopes (.templateParam index) =
          .ok (.templateParam index) := by
      cases scopes with
      | nil => rfl
      | cons arguments outer =>
        simp only [List.head?_cons,Option.bind_some] at hnone
        simp only [Printing.seenThrough,unqualified,hnone]
    rw [hsame] at hfound
    cases hfound
    exact ⟨rfl,rfl⟩
  | templateParam hnext _ ih =>
    obtain ⟨hargument,helement⟩ := hnext
    refine ih ?_
    simp only [Printing.seenThrough,unqualified,hargument,helement] at hfound
    exact hfound
  | @leftOnly scopes node hnode =>
    have hparam : ∀ index, node ≠ .templateParam index := by
      rintro index rfl
      exact hnode
    cases node <;> first
      | exact hnode.elim
      | exact direct hfound rfl hparam rfl rfl

theorem needsParentheses {place : Place} {needs : Bool}
    (h : OneSided place.packIndex place.scopes node)
    (hneeds : needsParentheses place node = .ok needs) : needs = false := by
  unfold Printing.needsParentheses hasFunction hasArray at hneeds
  cases hfound : Printing.seenThrough place.packIndex place.scopes node with
  | error error =>
    rw [hfound] at hneeds
    cases hneeds
  | ok found =>
    obtain ⟨harray,hfunction⟩ := h.seenThrough hfound
    rw [hfound] at hneeds
    simp only [Functor.map,Except.map,harray,hfunction] at hneeds
    cases hneeds
    rfl

end

section
variable {config : Config} {packIndex : Option Nat} {node : Node}

theorem of_hasRightSideWithin {scopes : Scopes} {parameter : Nat → Printer Bool}
    (h : ∀ index s t, parameter index s = .ok false t →
      OneSided packIndex scopes (.templateParam index))
    {s t : Sheet} (hrun : hasRightSideWithin config parameter node s = .ok false t) :
    OneSided packIndex scopes node := by
  fun_induction hasRightSideWithin config parameter node generalizing s with
  | case1 inner cv ih => exact .qualifiedType cv (ih hrun)
  | case2 inner qualifier arguments ih => exact .vendorQualifiedType qualifier arguments (ih hrun)
  | case3 index => exact h index s t hrun
  | case4 => cases hrun
  | case5 => cases hrun
  | case6 inner ih =>
    obtain ⟨_,s',_,hinner⟩ := bind_ok hrun
    exact .pointerType (ih hinner)
  | case7 inner kind ih =>
    obtain ⟨_,s',_,hinner⟩ := bind_ok hrun
    exact .referenceType kind (ih hinner)
  | case8 classType inner ih =>
    obtain ⟨_,s',_,hinner⟩ := bind_ok hrun
    exact .pointerToMemberType classType (ih hinner)
  | case9 node hqualified hvendor hparam harray hfunction hpointer hreference hmember =>
    refine .leftOnly ?_
    unfold LeftOnly
    split
    · exact hqualified _ _ rfl
    · exact hvendor _ _ _ rfl
    · exact hparam _ rfl
    · exact harray _ _ rfl
    · exact hfunction _ rfl
    · exact hpointer _ rfl
    · exact hreference _ _ rfl
    · exact hmember _ _ rfl
    · trivial

/-- Where the answer is that there is nothing to the right, there is no array or function at the
core. -/
theorem of_hasRightSide {place : Place} {s t : Sheet}
    (h : hasRightSide config place node s = .ok false t) :
    OneSided place.packIndex place.scopes node := by
  have within : ∀ (scopes : Scopes) (node : Node) (s t : Sheet),
      hasRightSideIn config place.packIndex scopes node s = .ok false t →
      OneSided place.packIndex scopes node := by
    intro scopes
    induction scopes with
    | nil => exact fun _ _ _ hrun => of_hasRightSideWithin (fun _ _ _ _ => .unresolved rfl) hrun
    | cons arguments outer ih =>
      refine fun _ _ _ hrun => of_hasRightSideWithin (fun index s t hparam => ?_) hrun
      cases hargument : arguments[index]? with
      | none => exact .unresolved hargument
      | some argument =>
        rw [hargument] at hparam
        obtain ⟨found,_,helement,hfound⟩ := bind_ok hparam
        exact .templateParam (.argument hargument (ofExcept_ok helement).1) (ih _ _ _ hfound)
  obtain ⟨_,s',_,hrun⟩ := bind_ok h
  exact within _ _ _ _ hrun

theorem passes {first last : Spot} {kinds : List ReferenceKind}
    (hway : Passes packIndex first kinds last) (h : OneSided packIndex first.1 first.2) :
    OneSided packIndex last.1 last.2 := by
  induction hway with
  | here => exact h
  | reference _ ih =>
    cases h with
    | referenceType _ h => exact ih h
    | leftOnly h => exact h.elim
  | argument hnext _ _ ih =>
    have hparam := hnext
    cases hnext with
    | argument => exact ih (h.standsFor hparam)

theorem indirectionRight {h : Halves} {place : Place}
    (hnode : OneSided place.packIndex place.scopes node) (hright : Asks (h.right place node)) :
    Asks (indirectionRight h place node) := by
  intro s _ t hrun
  obtain ⟨needs,s',hanswer,hrest⟩ := bind_ok hrun
  obtain ⟨hneeds,rfl⟩ := ofExcept_ok hanswer
  rw [hnode.needsParentheses hneeds] at hrest
  exact hright _ _ _ hrest

/-- The right half of such a type is empty. -/
theorem right {place : Place} (n : Nat) (h : OneSided place.packIndex place.scopes node) :
    Asks ((Halves.levels config n).right place node) := by
  -- On the levels: a reference goes on with what it collapses to, a parameter with its argument,
  -- and neither is a part of the node.
  induction n generalizing place node with
  | zero => exact (step_asks config).then fun _ => nofun
  | succ n ih =>
    refine (step_asks config).then fun _ => ?_
    cases node with
    | qualifiedType inner cv =>
      cases h with
      | qualifiedType _ h => exact ih h
      | leftOnly h => exact h.elim
    | vendorQualifiedType inner qualifier arguments =>
      cases h with
      | vendorQualifiedType _ _ h => exact ih h
      | leftOnly h => exact h.elim
    | pointerType inner =>
      cases h with
      | pointerType h => exact h.indirectionRight (ih h)
      | leftOnly h => exact h.elim
    | pointerToMemberType classType inner =>
      cases h with
      | pointerToMemberType _ h => exact h.indirectionRight (ih h)
      | leftOnly h => exact h.elim
    | referenceType inner kind =>
      intro s _ t hrun
      obtain ⟨c,s',hcollapse,hright⟩ := bind_ok hrun
      obtain ⟨houtput,hc⟩ := collapse_ok hcollapse
      obtain ⟨kinds,hway,_⟩ := hc.way
      have hinner : OneSided place.packIndex place.scopes inner := by
        cases h with
        | referenceType _ h => exact h
        | leftOnly h => exact h.elim
      have hreferent : OneSided place.packIndex c.scopes c.referent := hinner.passes hway
      have hempty : Asks (Printing.indirectionRight (Halves.levels config n)
          { place with scopes := c.scopes } c.referent) := hreferent.indirectionRight (ih hreferent)
      exact (hempty _ _ _ hright).trans houtput
    | templateParam index =>
      intro s _ t hrun
      simp only [rightHalf,Printing.templateParam] at hrun
      split at hrun
      · cases hrun
        rfl
      · obtain ⟨⟨found,outer⟩,s',hanswer,hright⟩ := bind_ok hrun
        obtain ⟨hfound,rfl⟩ := ofExcept_ok hanswer
        have hempty : Asks ((Halves.levels config n).right
            { place with scopes := outer, packIndex := none } found) :=
          ih (h.standsFor (resolve_standsFor hfound)).whole
        exact hempty _ _ _ hright
    | arrayType =>
      cases h with
      | leftOnly h => exact h.elim
    | functionType =>
      cases h with
      | leftOnly h => exact h.elim
    | _ => exact .pure ()

end

end OneSided

end MangledNames.Printing
