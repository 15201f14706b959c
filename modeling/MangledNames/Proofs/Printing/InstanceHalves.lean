import MangledNames.Proofs.Printing.Questions
set_option autoImplicit false

/-!
A node and what it comes to are printed alike, until a limit is reached.
-/

namespace MangledNames.Printing

open Simulation

theorem mark_then {α : Type} {m : Printer α} {q : Nat → Printer α}
    (h : ∀ n, (lockstep true).Alike m (q n)) : (lockstep true).Alike m (mark >>= q) :=
  ⟨fun s t hst => (h t.output.mark).results s t hst⟩

/-- An element that shows is kept in a list, with what follows it. -/
theorem shown_lockstep {print print' rest rest' : Printer Unit} (stay : Printer Unit)
    (h : (lockstep true).Alike print print')
    (hshows : ∀ before after, print before = .ok () after →
      after.output.mark ≠ before.output.mark)
    (hrest : (lockstep true).Alike rest rest') :
    (lockstep true).Alike
      (do
        print
        rest)
      (do
        let content ← mark
        print'
        if (← mark) = content then stay else rest') := by
  refine ⟨fun s t hst => ?_⟩
  have hprint := h.results s t hst
  rw [mark_bind,bind_apply,bind_apply]
  cases hs : print s with
  | error f s' =>
    rw [hs] at hprint
    cases ht : print' t <;> rw [ht] at hprint
    · exact Matches.cutLeft hprint _
    · exact hprint
  | ok _ s' =>
    rw [hs] at hprint
    cases ht : print' t with
    | error g t' =>
      rw [ht] at hprint
      exact Matches.cutRight hprint _
    | ok _ t' =>
      rw [ht] at hprint
      have hmark : ¬t'.output.mark = t.output.mark := by
        have hbefore : s.output.mark = t.output.mark := congrArg Array.size hst.chunks
        have hafter : s'.output.mark = t'.output.mark := congrArg Array.size hprint.2.chunks
        rw [← hbefore,← hafter]
        exact hshows s s' hs
      simp only [mark_bind,if_neg hmark]
      exact hrest.results s' t' hprint.2

theorem rightHalf_apart {node : Node} (hnode : Apart node) (config : Config) (h : Halves)
    (place : Place) : rightHalf config h place node = pure () := by
  cases node <;> first
    | exact hnode.elim
    | rfl

def Halves.RenderAlike (config : Config) (h h' : Halves) : Prop :=
  ∀ {place : Place} (place' : Place) {node node' : Node}, Renders config place node node' →
    h.Alike (lockstep true) h' place place' node node'

section
variable {config config' : Config} (ho : SameOptions true config config') {h h' : Halves}
  (hh : h.RenderAlike config h') {place : Place} (place' : Place) {node node' : Node}
include ho hh

theorem stands_renders (hr : Renders config place node node') :
    Halves.Stands (lockstep true) config config' h h' place place' node node' where
  toAlike := hh place' hr
  hasArray := hr.hasArray place'
  needsParentheses := hr.needsParentheses place'
  hasRightSide := hr.hasRightSide ho place'
  collapse kind := (hr.collapse ho place' kind).imp fun _ _ hfound =>
    ⟨hfound.kind,hh _ hfound.referent,hfound.referent.hasArray _,hfound.referent.needsParentheses _⟩

theorem standsAll_renders (hr : Renders config place node node') (hkeeps : node.KeepsPlace) :
    ∃ f, node' = node.map f ∧
      Halves.StandsAll (lockstep true) config config' h h' place place' f node := by
  obtain ⟨f,rfl,hparts⟩ := hr.keepsPlace hkeeps
  refine ⟨f,rfl,hkeeps,fun part hpart => stands_renders ho hh place' (hparts part hpart),?_,?_⟩
  · exact fun value => hh place' (.ground (Node.ground_sourceName value))
  · intro type htype
    have hprinted : type ∈ node.printed := by
      cases node <;> cases htype <;> exact .head _
    exact (hparts type hprinted).literal (hr.literalType htype)

theorem encoding_renders {e e' : Encoding Node}
    (hr : Renders config place (.encoding e) (.encoding e')) :
    (lockstep true).Alike (encoding config h place e) (encoding config' h' place' e') := by
  obtain ⟨f,he,hparts⟩ := hr.encoding
  cases he
  obtain ⟨name,signature⟩ := e
  unfold encoding
  cases signature with
  | none => exact (hh _ (hparts name (.head _))).print
  | some s =>
    refine function_alike (parallel_lockstep ho) ho.omitReturnType ho.omitParameterList
      (hh _ (hparts name (.head _))) ⟨?_,?_,rfl,rfl⟩
    · intro homit
      cases hreturn : s.returnType with
      | none => simp only [Signature.map,hreturn]; exact .none
      | some type =>
        have htype := hparts type (by simp [Encoding.printed,homit,hreturn])
        simp only [Signature.map,hreturn]
        exact .some ⟨hh _ htype,htype.hasRightSide ho _⟩
    · intro homit
      refine List.forall₂_map_right_iff.mpr (List.forall₂_same.mpr fun part hpart => ?_)
      exact hh _ (hparts part (by simp [Encoding.printed,homit,hpart]))

omit ho in
/-- The copies of a pattern one after another are the list of the instances of these copies. -/
theorem packElements_renders {pattern : Node} {f : Nat → Node} (count index : Nat)
    (hcopies : ∀ i, index ≤ i → i < index + count →
      Renders config { place with packIndex := some i } pattern (f i))
    (hshows : ∀ i, index ≤ i → i < index + count → ∀ before after,
      h.print { place with packIndex := some i } pattern before = .ok () after →
        after.output.mark ≠ before.output.mark) :
    (lockstep true).Alike (packElements h place pattern count index)
      (listFrom (h'.print place') (decide (index ≠ 0)) ((List.range' index count).map f)) := by
  induction count generalizing index with
  | zero => exact Holds.pure rfl
  | succ count ih =>
    have hrest := ih (index + 1) (fun i hi hlt => hcopies i (by omega) (by omega))
      fun i hi hlt => hshows i (by omega) (by omega)
    have hcopy := fun stay => shown_lockstep stay
      (hh place' (hcopies index (Nat.le_refl _) (by omega))).print
      (hshows index (Nat.le_refl _) (by omega)) hrest
    unfold packElements
    rw [List.range'_succ,List.map_cons,listFrom]
    refine mark_then fun before => ?_
    simp only [decide_eq_true_eq]
    exact Holds.guard (write_lockstep ", ") (hcopy _)

theorem packExpansion_renders {pattern : Node}
    (hshow : ∀ {place : Place} {node : Node}, Shows config place node → ∀ before after,
      h.print place node before = .ok () after → after.output.mark ≠ before.output.mark)
    (hr : Renders config place node node') (hnode : node.pattern? = some pattern) :
    (lockstep true).Alike (packExpansion config h place pattern)
      (leftHalf config' h' place' node') := by
  rcases hr.pattern hnode with ⟨rfl,hground⟩ | ⟨size,hsize,rfl,hcopies⟩
  · have hpattern : pattern.Ground := hground.child (by
      cases node' <;> cases hnode <;> simp [Node.children,Node.fields])
    have hexpansion : (lockstep true).Alike (packExpansion config h place pattern)
        (packExpansion config' h' place' pattern) :=
      packExpansion_alike (parallel_lockstep ho) (packSize_ground ho hpattern place place')
        (hh place' (.ground hpattern)) fun _ => hh _ (.ground hpattern)
    cases node' <;> cases hnode <;> exact hexpansion
  · have helements : (lockstep true).Alike (packElements h place pattern size 0)
        (leftHalf config' h' place' (.templateArgPack ((List.range size).map
          fun i => pattern.inst { place with packIndex := some i }))) := by
      rw [List.range_eq_range']
      exact packElements_renders hh place' size 0 (fun i _ hi => .inst (hcopies i (by omega)).1)
        fun i _ hi => hshow (hcopies i (by omega)).2
    have hcount := packSize_lockstep config place pattern
    rw [hsize] at hcount
    exact hcount.of_pure helements

theorem leftHalf_renders
    (hshow : ∀ {place : Place} {node : Node}, Shows config place node → ∀ before after,
      h.print place node before = .ok () after → after.output.mark ≠ before.output.mark)
    (hr : Renders config place node node') (hparam : ∀ index, node ≠ .templateParam index) :
    (lockstep true).Alike (leftHalf config h place node) (leftHalf config' h' place' node') := by
  have kept : node.KeepsPlace →
      (lockstep true).Alike (leftHalf config h place node) (leftHalf config' h' place' node') := by
    intro hkeeps
    obtain ⟨f,rfl,hstands⟩ := standsAll_renders ho hh place' hr hkeeps
    exact leftHalf_map_alike (parallel_lockstep ho) hstands
  cases node with
  | templateParam index => exact absurd rfl (hparam index)
  | packExpansion pattern => exact packExpansion_renders ho hh place' hshow hr rfl
  | packExpansionExpression pattern => exact packExpansion_renders ho hh place' hshow hr rfl
  | encoding e =>
    obtain ⟨f,rfl,_⟩ := hr.encoding
    exact encoding_renders ho hh place' hr
  | localName function entity =>
    obtain ⟨function',entity',rfl,hfunction,hentity⟩ := hr.localName
    refine (hh place' hfunction).print.bind fun _ => write_then_alike (parallel_lockstep ho) _ ?_
    exact (hh _ hentity).print
  | closureTypeName parameters number =>
    obtain ⟨f,rfl,hparts⟩ := hr.closureTypeName
    refine closure_alike (parallel_lockstep ho) ?_ number
    exact List.forall₂_map_right_iff.mpr
      (List.forall₂_same.mpr fun part hpart => hh _ (hparts part hpart))
  | _ => exact kept trivial

theorem rightHalf_renders (hr : Renders config place node node')
    (hparam : ∀ index, node ≠ .templateParam index) :
    (lockstep true).Alike (rightHalf config h place node) (rightHalf config' h' place' node') := by
  cases hr.view with
  | param => exact absurd rfl (hparam _)
  | kept hkeeps _ =>
    obtain ⟨f,hf,hstands⟩ := standsAll_renders ho hh place' hr hkeeps
    rw [hf]
    exact rightHalf_map_alike (parallel_lockstep ho) hstands
  | apart hnode hnode' =>
    rw [rightHalf_apart hnode,rightHalf_apart hnode']
    exact Holds.pure rfl

end

theorem templateParam_resolved {place : Place} {index : Nat} {found : Node} {scopes : Scopes}
    (h : resolve place index = .ok (found,scopes)) (half : Place → Node → Printer Unit)
    (auto : Nat → Printer Unit) :
    templateParam half auto place index =
      half { place with scopes := scopes, packIndex := none } found := by
  obtain ⟨arguments,argument,hscopes,hargument,_⟩ := resolve_ok h
  have hfound : place.argument? index = some argument := by
    simp [Place.argument?,hscopes,hargument]
  unfold templateParam
  rw [hfound,h]
  simp [ofExcept]

theorem Halves.levels_renders {config config' : Config} (ho : SameOptions true config config')
    (n k : Nat) : (Halves.levels config n).RenderAlike config (Halves.levels config' k) := by
  induction n generalizing k with
  | zero =>
    intro place place' node node' _
    exact Halves.exhausted_lockstep true config _ place place' node node'
  | succ n ih =>
    intro place place' node node' hr
    have hshow : ∀ {place : Place} {node : Node}, Shows config place node → ∀ before after,
        (Halves.levels config n).print place node before = .ok () after →
          after.output.mark ≠ before.output.mark := fun hshows => hshows n
    -- a parameter takes a level that what it stands for does not take
    by_cases hparam : ∃ index, node = .templateParam index
    · obtain ⟨index,rfl⟩ := hparam
      obtain ⟨hground,scopes,hresolve⟩ := hr.param
      have hrenders :
          Renders config { place with scopes := scopes, packIndex := none } node' node' :=
        .ground hground
      have hfound := ih k place' hrenders
      refine ⟨step_lockstep_left config ?_,step_lockstep_left config ?_⟩
      · simp only [leftHalf,templateParam_resolved hresolve]
        exact hfound.left
      · simp only [rightHalf,templateParam_resolved hresolve]
        exact hfound.right
    · have hparam' : ∀ index, node ≠ .templateParam index := fun index hnode => hparam ⟨index,hnode⟩
      cases k with
      | zero => exact Halves.lockstep_exhausted _ config' place place' node node'
      | succ k =>
        constructor
        · exact step_then_alike (parallel_lockstep ho)
            (leftHalf_renders ho (ih k) place' hshow hr hparam')
        · exact step_then_alike (parallel_lockstep ho)
            (rightHalf_renders ho (ih k) place' hr hparam')

section
variable {config : Config} {place : Place} {node : Node} {s t : Sheet}

/-- A level that prints something has another one below. -/
theorem left_ok {n : Nat} (h : (Halves.levels config n).left place node s = .ok () t) :
    ∃ k s', n = k + 1 ∧ s'.output = s.output ∧
      leftHalf config (Halves.levels config k) place node s' = .ok () t := by
  cases n with
  | zero =>
    obtain ⟨fault,stop,hfails,_⟩ := exhausted_fails config s
    exact absurd (hfails.symm.trans h) nofun
  | succ k =>
    obtain ⟨_,s',hstep,hleft⟩ := bind_ok h
    exact ⟨k,s',rfl,step_ok hstep,hleft⟩

theorem right_ok {n : Nat} (h : (Halves.levels config n).right place node s = .ok () t) :
    ∃ k s', n = k + 1 ∧ s'.output = s.output ∧
      rightHalf config (Halves.levels config k) place node s' = .ok () t := by
  cases n with
  | zero =>
    obtain ⟨fault,stop,hfails,_⟩ := exhausted_fails config s
    exact absurd (hfails.symm.trans h) nofun
  | succ k =>
    obtain ⟨_,s',hstep,hright⟩ := bind_ok h
    exact ⟨k,s',rfl,step_ok hstep,hright⟩

/-- A parameter that stands for a type with a name shows. -/
theorem shows_param {index : Nat} {type : BuiltinType} {scopes : Scopes}
    (h : resolve place index = .ok (.builtinType type,scopes)) (hname : type.name.isEmpty = false) :
    Shows config place (.templateParam index) := by
  intro n before after hprint
  obtain ⟨_,middle,hleft,hright⟩ := bind_ok hprint
  obtain ⟨k,s₁,_,hs₁,hleft⟩ := left_ok hleft
  simp only [leftHalf,templateParam_resolved h] at hleft
  obtain ⟨_,s₂,_,hs₂,hwrite⟩ := left_ok hleft
  have hmiddle := write_ok hname hwrite
  obtain ⟨k,s₃,_,hs₃,hright⟩ := right_ok hright
  simp only [rightHalf,templateParam_resolved h] at hright
  obtain ⟨_,s₄,_,hs₄,hend⟩ := right_ok hright
  cases hend
  rw [hs₄,hs₃,hmiddle,hs₂,hs₁]
  omega

end

end MangledNames.Printing
