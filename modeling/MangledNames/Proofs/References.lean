import Mathlib.Logic.Relation
import MangledNames.Proofs.Printing.InstanceHalves
import MangledNames.Proofs.Printing.LastSign
import MangledNames.Symbol
set_option autoImplicit false

/-!
References to references: which of them come to a single one, and what is printed before its sign.
-/

namespace MangledNames

namespace Printing

/-- Parameters are followed as long as they stand for something. -/
abbrev Denotes (packIndex : Option Nat) : Spot → Spot → Prop :=
  Relation.ReflTransGen (StandsFor packIndex)

theorem foldl_collapse (kind : ReferenceKind) (kinds : List ReferenceKind) :
    kinds.foldl .collapse kind = .lvalue ↔ .lvalue ∈ kind :: kinds := by
  induction kinds generalizing kind with
  | nil => simp [eq_comm]
  | cons next kinds ih =>
    rw [List.foldl_cons,ih]
    cases kind <;> cases next <;> simp [ReferenceKind.collapse]

/-- What does not lead to another parameter leads to no reference, if it stands for none. -/
theorem denotes_no_reference {packIndex : Option Nat} {first last : Spot}
    (hfirst : isReference first.2 = false)
    (hnext : ∀ next, StandsFor packIndex first next → isReference next.2 = false)
    (hlast : ∀ next index, StandsFor packIndex first next → next.2 ≠ .templateParam index)
    (h : Denotes packIndex first last) : isReference last.2 = false := by
  cases h.cases_head with
  | inl hsame => exact hsame ▸ hfirst
  | inr hmore =>
    obtain ⟨next,hstep,hrest⟩ := hmore
    cases hrest.cases_head with
    | inl hsame => exact hsame ▸ hnext next hstep
    | inr hmore =>
      obtain ⟨_,hfurther,_⟩ := hmore
      cases hfurther
      exact absurd rfl (hlast _ _ hstep)

theorem resolve_of_standsFor {place : Place} {index : Nat} {next : Spot}
    (h : StandsFor place.packIndex (place.scopes,.templateParam index) next) :
    resolve place index = .ok (next.2,next.1) := by
  generalize hscopes : place.scopes = scopes at h
  cases h with
  | argument hargument hfound =>
    unfold resolve
    simp only [hscopes,hargument,hfound]
    rfl

/-- A type that ends without a sign, or a parameter that stands for one. -/
def SpelledUnsigned (packIndex : Option Nat) (spot : Spot) : Prop :=
  endsUnsigned spot.2 = true ∨ ∃ next, StandsFor packIndex spot next ∧ endsUnsigned next.2 = true

section
variable {config : Config} {n : Nat} {place : Place} {node : Node}

theorem spelledUnsigned_left (h : SpelledUnsigned place.packIndex (place.scopes,node)) :
    Says ((Halves.levels config n).left place node) Unsigned := by
  rcases h with hends | ⟨next,hstep,hends⟩
  · exact left_unsigned hends
  · cases n with
    | zero => exact .exhausted
    | succ n =>
      have hparam : ∃ index, node = .templateParam index := by
        generalize hscopes : place.scopes = scopes at hstep
        cases hstep
        exact ⟨_,rfl⟩
      obtain ⟨index,rfl⟩ := hparam
      refine .ending step_puts.grows fun _ => ?_
      simp only [leftHalf,templateParam_resolved (resolve_of_standsFor hstep)]
      exact left_unsigned hends

theorem needsParentheses_of_array {array : Bool} (harray : hasArray place node = .ok array) :
    ∃ needs, needsParentheses place node = .ok needs ∧ (array = true → needs = true) := by
  unfold needsParentheses
  rw [harray]
  cases array with
  | true => exact ⟨true,rfl,id⟩
  | false =>
    unfold hasArray at harray
    unfold hasFunction
    cases hseen : seenThrough place.packIndex place.scopes node with
    | error error =>
      rw [hseen] at harray
      cases harray
    | ok found => exact ⟨isFunction found,rfl,nofun⟩

end

/-- What the left half of a reference is behind a text: that of what the reference comes to, with
parentheses around the declarator of an array or function, and a single sign. -/
def ReferenceText (config : Config) (n : Nat) (place : Place) (c : Collapsed)
    (before text : String) :
    Prop :=
  ∃ target array needs,
    Continues ((Halves.levels config n).left { place with scopes := c.scopes } c.referent) before
      target ∧
    hasArray { place with scopes := c.scopes } c.referent = .ok array ∧
    needsParentheses { place with scopes := c.scopes } c.referent = .ok needs ∧
    text = target ++ ((if array = true then " " else "") ++ ((if needs = true then "(" else "") ++
      c.kind.sign)) ∧
    (SpelledUnsigned place.packIndex (c.scopes,c.referent) →
      Unsigned (target ++ ((if array = true then " " else "") ++ if needs = true then "(" else "")))

section
variable {config : Config} {n : Nat} {place : Place} {s t : Sheet}

/-- The declarator of a pointer or reference behind the left half of what it leads to. -/
theorem indirectionLeft_ok {target : Node} {sign : String} (hs : s.Sound)
    (hrun : indirectionLeft (Halves.levels config n) place target sign s = .ok () t) :
    ∃ s₁ array needs, (Halves.levels config n).left place target s = .ok () s₁ ∧
      hasArray place target = .ok array ∧ needsParentheses place target = .ok needs ∧
      (array = true → needs = true) ∧
      t.output.text = s₁.output.text ++ ((if array = true then " " else "") ++
        ((if needs = true then "(" else "") ++ sign)) := by
  obtain ⟨_,s₁,hleft,hrun⟩ := bind_ok hrun
  obtain ⟨array,s₂,hanswer,hrest⟩ := bind_ok hrun
  obtain ⟨harray,rfl⟩ := ofExcept_ok hanswer
  obtain ⟨needs,hneeds,himp⟩ := needsParentheses_of_array harray
  have hs₁ := (Halves.left_grows n place target s hs () _ hleft).sound hs
  have hsigned : Says (if needs = true then write "(" >>= fun _ => write sign else write sign)
      (· = (if needs = true then "(" else "") ++ sign) := .writeIf_then _ (.write _)
  have hopened : Says (if array = true then write " " >>= fun _ => (if needs = true then
      write "(" >>= fun _ => write sign else write sign) else
      if needs = true then write "(" >>= fun _ => write sign else write sign) _ :=
    .writeIf_then " " hsigned
  rw [hneeds] at hrest
  exact ⟨_,array,needs,hleft,harray,hneeds,himp,(hopened.known hs₁ hrest).2⟩

theorem indirectionLeft_text {c : Collapsed} (hs : s.Sound)
    (hrun : indirectionLeft (Halves.levels config n) { place with scopes := c.scopes } c.referent
      c.kind.sign s = .ok () t) :
    ∃ text, t.output.text = s.output.text ++ text ∧
      ReferenceText config n place c s.output.text text := by
  obtain ⟨s₁,array,needs,hleft,harray,hneeds,himp,hread⟩ := indirectionLeft_ok hs hrun
  obtain ⟨_,target,htext,htarget⟩ :=
    (Halves.left_grows n { place with scopes := c.scopes } c.referent).continues hs hleft
  refine ⟨_,?_,target,array,needs,htarget,harray,hneeds,rfl,fun hspelled => ?_⟩
  · rw [hread,htext,String.append_assoc]
  · cases needs with
    | true => exact unsigned_append (unsigned_append (by decide))
    | false =>
      have hnone : array = false := by
        cases array with
        | true => exact absurd (himp rfl) nofun
        | false => rfl
      have hsays : Says ((Halves.levels config n).left { place with scopes := c.scopes } c.referent)
          Unsigned := spelledUnsigned_left hspelled
      obtain ⟨_,added,hadded,hunsigned⟩ := hsays s hs () _ hleft
      rw [added_unique (hadded.symm.trans htext)] at hunsigned
      simpa [hnone] using hunsigned

end

/-- A reference comes to what all references on the way and all parameters that stand for
references lead to, with the sign `&` if one of them has it. That is no reference, nor does it
stand for one; it leads to none unless it stands for another parameter. In front of the one sign
is what it is printed as. -/
theorem references_collapse_through_parameters (config : Config) (place : Place) (referent : Node)
    (kind : ReferenceKind) {s t : Sheet} :
    (∀ c, collapse config place referent kind s = .ok c t →
      (∃ kinds, Passes place.packIndex (place.scopes,referent) kinds (c.scopes,c.referent) ∧
        (c.kind = .lvalue ↔ .lvalue ∈ kind :: kinds)) ∧
      isReference c.referent = false ∧
      (∀ next, StandsFor place.packIndex (c.scopes,c.referent) next → isReference next.2 = false) ∧
      ((∀ next index, StandsFor place.packIndex (c.scopes,c.referent) next →
          next.2 ≠ .templateParam index) →
        ∀ last, Denotes place.packIndex (c.scopes,c.referent) last → isReference last.2 = false)) ∧
    ∀ n, s.Sound →
      (Halves.levels config (n + 1)).left place (.referenceType referent kind) s = .ok () t →
      ∃ c before after text, collapse config place referent kind before = .ok c after ∧
        t.output.text = s.output.text ++ text ∧
        ReferenceText config n place c s.output.text text := by
  constructor
  · intro c hrun
    obtain ⟨_,hc⟩ := collapse_ok hrun
    obtain ⟨kinds,hway,hkind⟩ := hc.way
    refine ⟨⟨kinds,hway,?_⟩,hc.referent,hc.parameter,fun hlast last => ?_⟩
    · rw [hkind]
      exact foldl_collapse kind kinds
    · exact denotes_no_reference hc.referent hc.parameter hlast
  · intro n hs hrun
    obtain ⟨_,s₁,hstep,hrun⟩ := bind_ok hrun
    obtain ⟨hs₁,hsame⟩ := step_puts.known hs hstep
    obtain ⟨c,s₂,hcollapse,hleft⟩ := bind_ok hrun
    obtain ⟨houtput,_⟩ := collapse_ok hcollapse
    obtain ⟨text,htext,hreference⟩ := indirectionLeft_text (hs₁.of_output houtput) hleft
    rw [houtput,hsame,String.append_empty] at htext hreference
    exact ⟨c,s₁,s₂,text,hcollapse,htext,hreference⟩

def insideReference : Place := { scopes := [[.referenceType (.builtinType .int) .lvalue]] }

/-- `T&&` is `int&` there. -/
theorem references_collapse_through_parameters_int :
    (∃ kinds, Passes none (insideReference.scopes,.templateParam 0) kinds ([],.builtinType .int) ∧
      (ReferenceKind.lvalue = .lvalue ↔ .lvalue ∈ ReferenceKind.rvalue :: kinds)) ∧
    ∃ t c text, (Halves.levels .standard 8).left insideReference
        (.referenceType (.templateParam 0) .rvalue) (.blank .standard) = .ok () t ∧
      t.output.text = "" ++ text ∧ ReferenceText .standard 7 insideReference c "" text := by
  have hleft : textOf ((Halves.levels .standard 8).left insideReference
      (.referenceType (.templateParam 0) .rvalue)) = some "int&" := by decide +kernel
  obtain ⟨t,hrun,_⟩ := textOf_eq hleft
  obtain ⟨c,_,_,text,_,htext,hreference⟩ := (references_collapse_through_parameters .standard
    insideReference (.templateParam 0) .rvalue).2 7 (.blank .standard) hrun
  have hcollapse :
    collapse .standard insideReference (.templateParam 0) .rvalue (.blank .standard) =
      .ok ⟨.lvalue,.builtinType .int,[]⟩ ⟨(Sheet.blank .standard).output,3⟩ := rfl
  exact ⟨((references_collapse_through_parameters .standard insideReference (.templateParam 0)
    .rvalue).1 _ hcollapse).1,t,c,text,hrun,htext,hreference⟩

/-- Inside a template whose argument is the parameter of a template with the argument `int&`. -/
def insideParameter : Place :=
  { scopes := [[.templateParam 0],[.referenceType (.builtinType .int) .lvalue]] }

/-- Where a parameter stands for a parameter that stands for a reference, two references are left,
and both signs are printed, as in `int&&&`. -/
theorem chains_of_parameters_keep_references :
    (demangle "_Z1gIRiEvDTL_Z1fIT_EvOT_EE").toOption =
      some "void g<int&>(decltype(void f<int&>(int&&&)))" ∧
    ¬∀ (config : Config) (place : Place) (referent : Node) (kind : ReferenceKind) (s t : Sheet)
      (c : Collapsed), collapse config place referent kind s = .ok c t →
      ∀ last, Denotes place.packIndex (c.scopes,c.referent) last → isReference last.2 = false := by
  refine ⟨by decide +kernel,fun h => ?_⟩
  have hcollapse :
    collapse .standard insideParameter (.templateParam 0) .rvalue (.blank .standard) =
      .ok ⟨.rvalue,.templateParam 0,insideParameter.scopes⟩ ⟨(Sheet.blank .standard).output,1⟩ :=
    rfl
  have hfirst : StandsFor none (insideParameter.scopes,.templateParam 0)
      ([[.referenceType (.builtinType .int) .lvalue]],.templateParam 0) := .argument rfl rfl
  have hsecond : StandsFor none ([[.referenceType (.builtinType .int) .lvalue]],.templateParam 0)
      ([],.referenceType (.builtinType .int) .lvalue) := .argument rfl rfl
  have hreference := h _ _ _ _ _ _ _ hcollapse _ (.head hfirst (.single hsecond))
  cases hreference

end Printing

end MangledNames
