import MangledNames.Proofs.LookingThrough
import MangledNames.Proofs.Qualifiers
import MangledNames.Proofs.References
set_option autoImplicit false

/-!
What is foreseen of a declarator is what is printed of it: whether anything stands to its right, and
whether it stands in parentheses.
-/

namespace MangledNames

namespace Printing

abbrev Reaches (once : Spot → Except DemangleError (Option Spot)) : Spot → Spot → Prop :=
  Relation.ReflTransGen (Moves once)

/-- Such a node is seen behind qualifiers and parameters. -/
def SeenAs (p : Node → Bool) (packIndex : Option Nat) (spot : Spot) : Prop :=
  ∃ core, Reaches (lookOnce packIndex) spot core ∧ p core.2 = true

def isDeclared (node : Node) : Bool := isArray node || isFunction node

/-- There is an array or a function at the core of a type, behind pointers and references too. -/
def TwoSided (packIndex : Option Nat) (spot : Spot) : Prop :=
  ∃ core, Reaches (descendOnce packIndex) spot core ∧ isDeclared core.2 = true

section
variable {once : Spot → Except DemangleError (Option Spot)} {packIndex : Option Nat}
  {spot first last next : Spot}

theorem LoopEnds.reaches {r : Except DemangleError Spot} (h : LoopEnds once first r)
    (hr : r = .ok last) :
    Reaches once first last := by
  induction h with
  | stops =>
    cases hr
    exact .refl
  | fails => cases hr
  | moves hfirst _ ih => exact .head hfirst (ih hr)

theorem Reaches.loopEnds (h : Reaches once first last) (hlast : once last = .ok none) :
    LoopEnds once first (.ok last) := by
  induction h using Relation.ReflTransGen.head_induction_on with
  | refl => exact .stops hlast
  | head hfirst _ ih => exact .moves hfirst ih

theorem lookOnce_declared {spot : Spot} (h : isDeclared spot.2 = true) :
    lookOnce packIndex spot = .ok none := by
  obtain ⟨scopes,node⟩ := spot
  cases node <;> first
    | rfl
    | cases h

theorem descendOnce_declared (h : isDeclared spot.2 = true) :
    descendOnce packIndex spot = .ok none := by
  have htarget : target? spot.2 = none := by
    cases hnode : spot.2 <;> first
      | rfl
      | (rw [hnode] at h; cases h)
  rw [descendOnce,htarget]
  exact lookOnce_declared h

theorem StandsFor.descends (h : StandsFor packIndex first next) :
    Moves (descendOnce packIndex) first next := by
  have hargument := h
  cases h with
  | argument => exact hargument.argumentOnce

theorem seenThrough_seenAs {p : Node → Bool} (hp : ∀ node, p node = true → isDeclared node = true)
    {scopes : Scopes} {node found : Node} (hfound : seenThrough packIndex scopes node = .ok found) :
    p found = true ↔ SeenAs p packIndex (scopes,node) := by
  obtain ⟨r,hr⟩ := loopEnds_exists (@lookOnce_moves packIndex) (scopes,node)
  have hseen := hr.seenThrough
  rw [hfound] at hseen
  cases r with
  | error error => cases hseen
  | ok last =>
    cases hseen
    refine ⟨fun hlast => ⟨last,hr.reaches rfl,hlast⟩,?_⟩
    rintro ⟨core,hway,hcore⟩
    cases hr.unique (hway.loopEnds (lookOnce_declared (hp _ hcore)))
    exact hcore

theorem hasArray_seenAs {place : Place} {node : Node} {array : Bool}
    (h : hasArray place node = .ok array) :
    array = true ↔ SeenAs isArray place.packIndex (place.scopes,node) := by
  unfold hasArray at h
  cases hfound : seenThrough place.packIndex place.scopes node with
  | error error =>
    rw [hfound] at h
    cases h
  | ok found =>
    rw [hfound] at h
    cases h
    exact seenThrough_seenAs (fun node harray => by simp [isDeclared,harray]) hfound

theorem needsParentheses_seenAs {place : Place} {node : Node} {needs : Bool}
    (h : needsParentheses place node = .ok needs) :
    needs = true ↔ SeenAs isDeclared place.packIndex (place.scopes,node) := by
  unfold needsParentheses hasFunction hasArray at h
  cases hfound : seenThrough place.packIndex place.scopes node with
  | error error =>
    rw [hfound] at h
    cases h
  | ok found =>
    have hneeds : needs = isDeclared found := by
      rw [hfound] at h
      simp only [Functor.map,Except.map] at h
      unfold isDeclared
      cases harray : isArray found <;> rw [harray] at h <;> cases h <;> rfl
    rw [hneeds]
    exact seenThrough_seenAs (fun _ hdeclared => hdeclared) hfound

namespace TwoSided

theorem move (h : TwoSided packIndex first) (hmoves : Moves (descendOnce packIndex) first next) :
    TwoSided packIndex next := by
  obtain ⟨core,hway,hcore⟩ := h
  rcases hway.cases_head with rfl | ⟨next',hfirst,hrest⟩
  · cases hmoves.symm.trans (descendOnce_declared hcore)
  · cases hfirst.symm.trans hmoves
    exact ⟨core,hrest,hcore⟩

theorem cases_head (h : TwoSided packIndex first) :
    isDeclared first.2 = true ∨
      ∃ next, Moves (descendOnce packIndex) first next ∧ TwoSided packIndex next := by
  obtain ⟨core,hway,hcore⟩ := h
  rcases hway.cases_head with rfl | ⟨next,hfirst,hrest⟩
  · exact .inl hcore
  · exact .inr ⟨next,hfirst,core,hrest,hcore⟩

theorem passes {kinds : List ReferenceKind} (hway : Passes packIndex first kinds last)
    (h : TwoSided packIndex first) : TwoSided packIndex last := by
  induction hway with
  | here => exact h
  | reference _ ih => exact ih (h.move rfl)
  | argument hstands _ _ ih => exact ih (h.move hstands.descends)

theorem of_hasRightSide {config : Config} {place : Place} {node : Node} {s t : Sheet}
    (hrun : hasRightSide config place node s = .ok true t) :
    TwoSided place.packIndex (place.scopes,node) := by
  obtain ⟨_,s',_,hrest⟩ := bind_ok hrun
  obtain ⟨r,hr⟩ := loopEnds_exists (@descendOnce_moves place.packIndex)
    (place.scopes,node)
  obtain ⟨k,_,htakes⟩ := hr.hasRightSideIn
  have hanswer := htakes.only _ _ _ _ hrest
  cases r with
  | error error => cases hanswer
  | ok last => exact ⟨last,hr.reaches rfl,Except.ok.inj hanswer⟩

end TwoSided

end

namespace Says

variable {α β : Type} {m : Printer α} {q : α → Printer β} {k : Unit → Printer β}

theorem then_some (h : Grows m) (hq : ∀ a, Says (q a) (· ≠ "")) : Says (m >>= q) (· ≠ "") :=
  (of_grows h).bind hq fun _ _ _ hne happend => hne (String.append_eq_empty_iff.mp happend).2

theorem some_then {text : String} (htext : text ≠ "") (hk : ∀ a, Grows (k a)) :
    Says (Printing.write text >>= k) (· ≠ "") :=
  (Says.write text).bind (fun a => of_grows (hk a)) fun _ _ hwritten _ happend =>
    htext (hwritten ▸ (String.append_eq_empty_iff.mp happend).1)

end Says

section
variable {config : Config} {n : Nat} {place : Place}

theorem functionTypeRight_some (f : FunctionType Node) :
    Says (functionTypeRight (Halves.levels config n) place f) (· ≠ "") := by
  rw [functionTypeRight_parts,parameterList,bind_assoc]
  refine .some_then (by decide) fun _ => ?_
  rw [bind_assoc]
  refine (Halves.printList_grows n place f.parameters).bind fun _ =>
    (Says.write ")").grows.bind fun _ => ?_
  refine (Halves.right_grows n place f.returnType).bind fun _ => ?_
  refine (memberQualifiers_puts f.cv f.ref).grows.bind fun _ => ?_
  exact (exceptionSpec_grows f.exceptionSpec).bind fun _ => (Says.writeIf f.transactionSafe _).grows

theorem arrayRight_some (element : Node) (bound : Option (Dimension Node)) :
    Says (rightHalf config (Halves.levels config n) place (.arrayType element bound)) (· ≠ "") := by
  have closed : Grows (do
      write "]"
      (Halves.levels config n).right place element) :=
    (Says.write "]").grows.bind fun _ => Halves.right_grows n place element
  have apart : ∀ (c : Bool) {k : Unit → Printer Unit}, Says (k ()) (· ≠ "") →
      Says (if c = true then k () else write " " >>= k) (· ≠ "") := by
    intro c k h
    cases c with
    | true => exact h
    | false => exact .then_some (Says.write " ").grows fun _ => h
  cases bound with
  | none => exact .then_some last_grows fun c => apart _ (.some_then (by decide) fun _ => closed)
  | some bound =>
    refine .then_some last_grows fun c => apart _ (.some_then (by decide) fun _ => ?_)
    exact (dimension_grows bound).bind fun _ => closed

theorem indirectionRight_some {target : Node}
    (h : Says ((Halves.levels config n).right place target) (· ≠ "")) :
    Says (indirectionRight (Halves.levels config n) place target) (· ≠ "") := by
  refine .ofExcept fun needs _ => ?_
  cases needs with
  | true => exact .then_some (Says.write ")").grows fun _ => h
  | false => exact h

/-- Where there is an array or a function at the core, the right half is not empty. -/
theorem TwoSided.right {node : Node} (hpack : place.packIndex = none)
    (h : TwoSided none (place.scopes,node)) :
    Says ((Halves.levels config n).right place node) (· ≠ "") := by
  induction n generalizing place node with
  | zero => exact .exhausted
  | succ n ih =>
    refine .then_some step_puts.grows fun _ => ?_
    cases node with
    | arrayType element bound => exact arrayRight_some element bound
    | functionType f => exact functionTypeRight_some f
    | qualifiedType inner cv => exact ih hpack (h.move rfl)
    | vendorQualifiedType inner qualifier arguments => exact ih hpack (h.move rfl)
    | pointerType inner => exact indirectionRight_some (ih hpack (h.move rfl))
    | pointerToMemberType classType inner => exact indirectionRight_some (ih hpack (h.move rfl))
    | referenceType inner kind =>
      refine .asked (collapse_grows place inner kind) (fun _ _ _ => collapse_ok) fun c hc => ?_
      obtain ⟨kinds,hway,_⟩ := hc.way
      rw [hpack] at hway
      exact indirectionRight_some (ih hpack ((h.move rfl).passes hway))
    | templateParam index =>
      obtain ⟨next,hmoves,hnext⟩ := h.cases_head.resolve_left Bool.false_ne_true
      have hstands : StandsFor none (place.scopes,.templateParam index) next :=
        argumentOnce_standsFor hmoves
      have hresolved := resolve_of_standsFor (hpack ▸ hstands)
      simp only [rightHalf,templateParam_resolved hresolved]
      exact ih rfl hnext
    | _ =>
      obtain ⟨next,hmoves,_⟩ := h.cases_head.resolve_left Bool.false_ne_true
      cases hmoves

end

/-- Outside of packs it is foreseen rightly whether a type prints anything to its right. In front of
a declarator a parenthesis is opened just when one is closed behind it: around those of arrays and
functions, behind whatever qualifiers and parameters these are seen. -/
theorem right_sides_are_foreseen (config : Config) (n : Nat) (place : Place) (node : Node) :
    (place.packIndex = none → ∀ (s t s' t' : Sheet) (answer : Bool), s'.Sound →
      hasRightSide config place node s = .ok answer t →
      (Halves.levels config n).right place node s' = .ok () t' →
      ∃ added, t'.output.text = s'.output.text ++ added ∧ (answer = true ↔ added ≠ "")) ∧
    ∃ needs array : Bool,
      (needs = true ↔ SeenAs isDeclared place.packIndex (place.scopes,node)) ∧
      (array = true ↔ SeenAs isArray place.packIndex (place.scopes,node)) ∧
      (∀ (sign : String) (s t : Sheet), s.Sound →
        indirectionLeft (Halves.levels config n) place node sign s = .ok () t →
        ∃ left, Continues ((Halves.levels config n).left place node) s.output.text left ∧
          t.output.text = s.output.text ++ left ++ (if array = true then " " else "") ++
            (if needs = true then "(" else "") ++ sign) ∧
      ∀ s t : Sheet, s.Sound → indirectionRight (Halves.levels config n) place node s = .ok () t →
        ∃ right, Continues ((Halves.levels config n).right place node)
            (s.output.text ++ if needs = true then ")" else "") right ∧
          t.output.text = s.output.text ++ (if needs = true then ")" else "") ++ right := by
  classical
  refine ⟨fun hpack s t s' t' answer hs' hforeseen hright => ?_,decide (SeenAs isDeclared _ _),
    decide (SeenAs isArray _ _),decide_eq_true_iff,decide_eq_true_iff,fun sign s t hs hleft => ?_,
    fun s t hs hright => ?_⟩
  · cases answer with
    | true =>
      have htwo := TwoSided.of_hasRightSide hforeseen
      rw [hpack] at htwo
      obtain ⟨_,added,hadded,hne⟩ := htwo.right hpack s' hs' () t' hright
      exact ⟨added,hadded,fun _ => hne,fun _ => rfl⟩
    | false =>
      refine ⟨"",?_,nofun,fun hne => absurd rfl hne⟩
      rw [(OneSided.of_hasRightSide hforeseen).right n s' () t' hright,String.append_empty]
  · obtain ⟨s₁,array,needs,hprinted,harray,hneeds,_,htext⟩ := indirectionLeft_ok hs hleft
    obtain ⟨_,left,hleft,hcontinues⟩ := (Halves.left_grows n place node).continues hs hprinted
    refine ⟨left,hcontinues,?_⟩
    have harray : decide (SeenAs isArray place.packIndex (place.scopes,node)) = array :=
      Bool.eq_iff_iff.mpr (decide_eq_true_iff.trans (hasArray_seenAs harray).symm)
    have hneeds : decide (SeenAs isDeclared place.packIndex (place.scopes,node)) = needs :=
      Bool.eq_iff_iff.mpr (decide_eq_true_iff.trans (needsParentheses_seenAs hneeds).symm)
    rw [harray,hneeds,htext,hleft]
    simp only [String.append_assoc]
  · obtain ⟨needs,s₁,hanswer,hrest⟩ := bind_ok hright
    obtain ⟨hneeds,rfl⟩ := ofExcept_ok hanswer
    have hneeds : decide (SeenAs isDeclared place.packIndex (place.scopes,node)) = needs :=
      Bool.eq_iff_iff.mpr (decide_eq_true_iff.trans (needsParentheses_seenAs hneeds).symm)
    rw [hneeds]
    cases needs with
    | true =>
      obtain ⟨_,s₂,hclose,hrest⟩ := bind_ok hrest
      obtain ⟨hs₂,hclosed⟩ := (Says.write ")").known hs hclose
      obtain ⟨_,right,htext,hcontinues⟩ := (Halves.right_grows n place node).continues hs₂ hrest
      rw [hclosed] at htext hcontinues
      exact ⟨right,hcontinues,htext⟩
    | false =>
      obtain ⟨_,right,htext,hcontinues⟩ := (Halves.right_grows n place node).continues hs hrest
      exact ⟨right,by simpa using hcontinues,by simpa using htext⟩

def insideFunction : Place where
  scopes := [[.functionType { returnType := .builtinType .void, parameters := [] }]]

/-- A pointer to what the parameter stands for there is printed as `void (*` and `)()`. -/
theorem right_sides_are_foreseen_parameter :
    (∃ t' added, (Halves.levels .standard 8).right insideFunction (.pointerType (.templateParam 0))
        (.blank .standard) = .ok () t' ∧ t'.output.text = "" ++ added ∧
        (true = true ↔ added ≠ "")) ∧
    ∃ needs array : Bool,
      (needs = true ↔ SeenAs isDeclared none (insideFunction.scopes,.templateParam 0)) ∧
      ∃ left, "void (*" = "" ++ left ++ (if array = true then " " else "") ++
        (if needs = true then "(" else "") ++ "*" := by
  constructor
  · have hright :
      textOf ((Halves.levels .standard 8).right insideFunction (.pointerType (.templateParam 0))) =
        some ")()" := by decide +kernel
    obtain ⟨t',hrun,_⟩ := textOf_eq hright
    have hforeseen : hasRightSide .standard insideFunction (.pointerType (.templateParam 0))
        (.blank .standard) = .ok true ⟨(Sheet.blank .standard).output,2⟩ := rfl
    obtain ⟨added,hadded,hiff⟩ := (right_sides_are_foreseen .standard 8 insideFunction
      (.pointerType (.templateParam 0))).1 rfl _ _ _ _ _ (.blank .standard) hforeseen hrun
    exact ⟨t',added,hrun,hadded,hiff⟩
  · have hleft :
      textOf (indirectionLeft (Halves.levels .standard 7) insideFunction (.templateParam 0) "*") =
        some "void (*" := by decide +kernel
    obtain ⟨t,hrun,htext⟩ := textOf_eq hleft
    obtain ⟨needs,array,hneeds,_,hprinted,_⟩ :=
      (right_sides_are_foreseen .standard 7 insideFunction (.templateParam 0)).2
    obtain ⟨left,_,hadded⟩ := hprinted "*" _ _ (.blank .standard) hrun
    exact ⟨needs,array,hneeds,left,htext ▸ hadded⟩

end Printing

end MangledNames
