import MangledNames.Proofs.Printing.Lockstep
import MangledNames.Proofs.Printing.Meeting
set_option autoImplicit false

/-!
What is asked of a node while it is printed has the same answer for what the node comes to.
-/

namespace MangledNames.Printing

open Simulation

theorem resolve_ok {place : Place} {index : Nat} {found : Node} {outer : Scopes}
    (h : resolve place index = .ok (found,outer)) :
    ∃ arguments argument, place.scopes = arguments :: outer ∧ arguments[index]? = some argument ∧
      element place.packIndex index argument = .ok found := by
  unfold resolve at h
  cases hscopes : place.scopes with
  | nil => simp [hscopes] at h
  | cons arguments scopes =>
    cases hargument : arguments[index]? with
    | none => simp [hscopes,hargument] at h
    | some argument =>
      cases helement : element place.packIndex index argument with
      | error error =>
        simp only [hscopes,hargument,helement] at h
        cases h
      | ok node =>
        simp only [hscopes,hargument,helement] at h
        cases h
        exact ⟨arguments,argument,rfl,hargument,helement⟩

theorem seenThrough_eq {node : Node} (h : ∀ index, unqualified node ≠ .templateParam index)
    (packIndex : Option Nat) (scopes : Scopes) :
    seenThrough packIndex scopes node = .ok (unqualified node) := by
  cases scopes with
  | nil => rfl
  | cons arguments outer =>
    unfold seenThrough
    split
    · rename_i index hindex
      exact absurd hindex (h index)
    · rfl

theorem unqualified_ground {node : Node} (h : node.Ground) : (unqualified node).Ground := by
  fun_induction unqualified node with
  | case1 inner cv ih => exact ih (Renders.printed_ground h (.head _))
  | case2 inner qualifier arguments ih => exact ih (Renders.printed_ground h (.head _))
  | case3 node => exact h

theorem seenThrough_ground {node : Node} (h : node.Ground) (packIndex : Option Nat)
    (scopes : Scopes) : seenThrough packIndex scopes node = .ok (unqualified node) :=
  seenThrough_eq (fun index hparam =>
    Node.not_ground_param index (hparam ▸ unqualified_ground h)) packIndex scopes

theorem seenThrough_qualifiedType (packIndex : Option Nat) (scopes : Scopes) (inner : Node)
    (cv : CvQualifiers) :
    seenThrough packIndex scopes (.qualifiedType inner cv) = seenThrough packIndex
      scopes inner := by
  cases scopes <;> rfl

theorem seenThrough_vendorQualifiedType (packIndex : Option Nat) (scopes : Scopes) (inner : Node)
    (qualifier : String) (arguments : Option (List Node)) :
    seenThrough packIndex scopes (.vendorQualifiedType inner qualifier arguments) =
      seenThrough packIndex scopes inner := by
  cases scopes <;> rfl

theorem seenThrough_apart {node : Node} (h : Apart node) (packIndex : Option Nat)
    (scopes : Scopes) :
    seenThrough packIndex scopes node = .ok node ∧ isArray node = false ∧
      isFunction node = false := by
  cases node <;> first
    | exact h.elim
    | exact ⟨seenThrough_eq (fun _ h => by cases h) packIndex scopes,rfl,rfl⟩

theorem hasRightSideWithin_apart {node : Node} (h : Apart node) (config : Config)
    (parameter : Nat → Printer Bool) : hasRightSideWithin config parameter node = pure false := by
  cases node <;> first
    | exact h.elim
    | rfl

theorem collapseWithin_apart {node : Node} (h : Apart node) (config : Config) (scopes : Scopes)
    (parameter : ReferenceKind → Nat → Printer Collapsed) (kind : ReferenceKind) :
    collapseWithin config scopes parameter kind node = (do
      step config
      return ⟨kind,node,scopes⟩) := by
  cases node <;> first
    | exact h.elim
    | rfl

theorem literal_apart {node : Node} (h : Apart node) :
    integerSuffix? node = none ∧ ∀ value, numberFormat? node value = none := by
  cases node <;> first
    | exact h.elim
    | exact ⟨rfl,fun _ => rfl⟩

/-- The same reference, to nodes of which the first comes to the second. -/
structure Collapsed.Renders (config : Config) (place : Place)
    (found found' : Collapsed) : Prop where
  kind : found.kind = found'.kind
  referent :
    Printing.Renders config { place with scopes := found.scopes } found.referent found'.referent

section
variable {config : Config} {place : Place} {node node' : Node}

/-- Both are arrays or none is, and so with functions. -/
theorem Renders.seen (h : Renders config place node node') (place' : Place) :
    ∃ found found', seenThrough place.packIndex place.scopes node = .ok found ∧
      seenThrough place'.packIndex place'.scopes node' = .ok found' ∧
      isArray found = isArray found' ∧ isFunction found = isFunction found' := by
  fun_induction unqualified node generalizing node' with
  | case1 inner cv ih =>
    obtain ⟨f,rfl,hparts⟩ := h.keepsPlace trivial
    simpa [Node.map,seenThrough_qualifiedType] using ih (hparts inner (.head _))
  | case2 inner qualifier arguments ih =>
    obtain ⟨f,rfl,hparts⟩ := h.keepsPlace trivial
    simpa [Node.map,seenThrough_vendorQualifiedType] using ih (hparts inner (.head _))
  | case3 node hqualified hvendor =>
    cases h.view with
    | param hresolve hground =>
      obtain ⟨arguments,argument,hscopes,hargument,helement⟩ := resolve_ok hresolve
      refine ⟨_,_,?_,seenThrough_ground hground _ _,rfl,rfl⟩
      rw [hscopes,seenThrough]
      simp only [unqualified,hargument,helement]
      exact seenThrough_ground hground _ _
    | kept hkeeps _ =>
      cases node with
      | qualifiedType inner cv => exact absurd rfl (hqualified inner cv)
      | vendorQualifiedType inner qualifier arguments =>
        exact absurd rfl (hvendor inner qualifier arguments)
      | templateParam index => exact hkeeps.elim
      | _ =>
        exact ⟨_,_,seenThrough_eq (fun _ h => by cases h) _ _,seenThrough_eq
          (fun _ h => by cases h) _ _,
          rfl,rfl⟩
    | apart hnode hnode' =>
      obtain ⟨hseen,harray,hfunction⟩ := seenThrough_apart hnode place.packIndex place.scopes
      obtain ⟨hseen',harray',hfunction'⟩ := seenThrough_apart hnode' place'.packIndex place'.scopes
      exact ⟨node,node',hseen,hseen',harray.trans harray'.symm,hfunction.trans hfunction'.symm⟩

theorem Renders.hasArray (h : Renders config place node node') (place' : Place) :
    (lockstep true).Alike (ofExcept (hasArray place node)) (ofExcept (hasArray place' node')) := by
  obtain ⟨found,found',hseen,hseen',harray,_⟩ := h.seen place'
  unfold Printing.hasArray
  rw [hseen,hseen']
  exact Holds.pure harray

theorem Renders.needsParentheses (h : Renders config place node node') (place' : Place) :
    (lockstep true).Alike (ofExcept (needsParentheses place node))
      (ofExcept (needsParentheses place' node')) := by
  obtain ⟨found,found',hseen,hseen',harray,hfunction⟩ := h.seen place'
  unfold Printing.needsParentheses Printing.hasFunction Printing.hasArray
  rw [hseen,hseen']
  simp only [Functor.map,Except.map,harray,hfunction]
  cases isArray found' <;> exact Holds.pure rfl

variable {config' : Config} (ho : SameOptions true config config')
include ho

theorem hasRightSideWithin_renders {parameter parameter' : Nat → Printer Bool}
    (hparameter : ∀ index node', Renders config place (.templateParam index) node' →
      (lockstep true).Alike (parameter index) (hasRightSideWithin config' parameter' node'))
    (h : Renders config place node node') :
    (lockstep true).Alike (hasRightSideWithin config parameter node)
      (hasRightSideWithin config' parameter' node') := by
  fun_induction hasRightSideWithin config parameter node generalizing node' with
  | case1 inner cv ih =>
    obtain ⟨f,rfl,hparts⟩ := h.keepsPlace trivial
    rw [Node.map,hasRightSideWithin]
    exact ih (hparts inner (.head _))
  | case2 inner qualifier arguments ih =>
    obtain ⟨f,rfl,hparts⟩ := h.keepsPlace trivial
    rw [Node.map,hasRightSideWithin]
    exact ih (hparts inner (.head _))
  | case3 index => exact hparameter index node' h
  | case4 =>
    obtain ⟨f,rfl,_⟩ := h.keepsPlace trivial
    exact Holds.pure rfl
  | case5 =>
    obtain ⟨f,rfl,_⟩ := h.keepsPlace trivial
    exact Holds.pure rfl
  | case6 inner ih =>
    obtain ⟨f,rfl,hparts⟩ := h.keepsPlace trivial
    exact step_then_alike (parallel_lockstep ho) (ih (hparts inner (.head _)))
  | case7 inner kind ih =>
    obtain ⟨f,rfl,hparts⟩ := h.keepsPlace trivial
    exact step_then_alike (parallel_lockstep ho) (ih (hparts inner (.head _)))
  | case8 classType inner ih =>
    obtain ⟨f,rfl,hparts⟩ := h.keepsPlace trivial
    exact step_then_alike (parallel_lockstep ho) (ih (hparts inner (.tail _ (.head _))))
  | case9 node hqualified hvendor hparam harray hfunction hpointer hreference hmember =>
    cases h.view with
    | param => exact absurd rfl (hparam _)
    | apart hnode hnode' =>
      rw [hasRightSideWithin_apart hnode']
      exact Holds.pure rfl
    | kept hkeeps _ =>
      cases node with
      | qualifiedType inner cv => exact absurd rfl (hqualified inner cv)
      | vendorQualifiedType inner qualifier arguments =>
        exact absurd rfl (hvendor inner qualifier arguments)
      | arrayType element bound => exact absurd rfl (harray element bound)
      | functionType type => exact absurd rfl (hfunction type)
      | pointerType inner => exact absurd rfl (hpointer inner)
      | referenceType inner kind => exact absurd rfl (hreference inner kind)
      | pointerToMemberType classType inner => exact absurd rfl (hmember classType inner)
      | templateParam index => exact hkeeps.elim
      | _ => exact Holds.pure rfl

theorem hasRightSideIn_renders (parameter' : Nat → Printer Bool)
    (h : Renders config place node node') :
    (lockstep true).Alike (hasRightSideIn config place.packIndex place.scopes node)
      (hasRightSideWithin config' parameter' node') := by
  -- On the scopes: an argument is looked through in those outside of its own list.
  generalize hscopes : place.scopes = scopes
  induction scopes generalizing place node node' with
  | nil =>
    refine hasRightSideWithin_renders ho (fun index found hfound => ?_) h
    obtain ⟨_,outer,hresolve⟩ := hfound.param
    obtain ⟨arguments,argument,hcons,_⟩ := resolve_ok hresolve
    rw [hscopes] at hcons
    cases hcons
  | cons arguments outer ih =>
    refine hasRightSideWithin_renders ho (fun index found hfound => ?_) h
    obtain ⟨hground,outer',hresolve⟩ := hfound.param
    obtain ⟨arguments',argument,hcons,hargument,helement⟩ := resolve_ok hresolve
    rw [hscopes] at hcons
    cases hcons
    simp only [hargument,helement]
    have houter : Renders config { place with scopes := outer } found found := .ground hground
    have hside := ih houter rfl
    exact hside

theorem Renders.hasRightSide (h : Renders config place node node') (place' : Place) :
    (lockstep true).Alike (hasRightSide config place node) (hasRightSide config' place' node') := by
  refine step_then_alike (parallel_lockstep ho) ?_
  cases hscopes : place'.scopes with
  | nil => exact hasRightSideIn_renders ho _ h
  | cons arguments outer => exact hasRightSideIn_renders ho _ h

theorem collapseWithin_renders {scopes : Scopes} (hscopes : place.scopes = scopes)
    (scopes' : Scopes) {parameter parameter' : ReferenceKind → Nat → Printer Collapsed}
    (hparameter : ∀ kind index node', Renders config place (.templateParam index) node' →
      (lockstep true).Holds (Collapsed.Renders config place)
        (do
          step config
          parameter kind index)
        (collapseWithin config' scopes' parameter' kind node'))
    (h : Renders config place node node') (kind : ReferenceKind) :
    (lockstep true).Holds (Collapsed.Renders config place)
      (collapseWithin config scopes parameter kind node)
      (collapseWithin config' scopes' parameter' kind node') := by
  fun_induction collapseWithin config scopes parameter kind node generalizing node' with
  | case1 kind referent inner ih =>
    obtain ⟨f,rfl,hparts⟩ := h.keepsPlace trivial
    rw [Node.map,collapseWithin]
    exact Holds.bind (step_lockstep ho) fun _ _ _ => ih (hparts referent (.head _))
  | case2 kind index => exact hparameter kind index node' h
  | case3 kind node hreference hparam =>
    have hlast : Collapsed.Renders config place ⟨kind,node,scopes⟩ ⟨kind,node',scopes'⟩ := by
      subst hscopes
      exact ⟨rfl,h⟩
    have stopped : collapseWithin config' scopes' parameter' kind node' = (do
        step config'
        return ⟨kind,node',scopes'⟩) := by
      cases h.view with
      | param => exact absurd rfl (hparam _)
      | apart hnode hnode' => exact collapseWithin_apart hnode' ..
      | kept hkeeps _ =>
        cases node with
        | referenceType referent inner => exact absurd rfl (hreference referent inner)
        | templateParam index => exact hkeeps.elim
        | _ => rfl
    rw [stopped]
    exact Holds.bind (step_lockstep ho) fun _ _ _ => Holds.pure hlast

theorem collapseIn_renders (scopes' : Scopes)
    (parameter' : ReferenceKind → Nat → Printer Collapsed) (h : Renders config place node node')
    (kind : ReferenceKind) :
    (lockstep true).Holds (Collapsed.Renders config place)
      (collapseIn config place.packIndex place.scopes kind node)
      (collapseWithin config' scopes' parameter' kind node') := by
  generalize hscopes : place.scopes = scopes
  induction scopes generalizing place node node' kind with
  | nil =>
    refine collapseWithin_renders ho hscopes scopes' (fun kind index found hfound => ?_) h kind
    obtain ⟨_,outer,hresolve⟩ := hfound.param
    obtain ⟨arguments,argument,hcons,_⟩ := resolve_ok hresolve
    rw [hscopes] at hcons
    cases hcons
  | cons arguments outer ih =>
    refine collapseWithin_renders ho hscopes scopes' (fun kind index found hfound => ?_) h kind
    obtain ⟨hground,outer',hresolve⟩ := hfound.param
    obtain ⟨arguments',argument,hcons,hargument,helement⟩ := resolve_ok hresolve
    rw [hscopes] at hcons
    cases hcons
    simp only [hargument,helement,ofExcept,pure_bind]
    have hplace : { place with scopes := arguments :: outer } = place := by rw [← hscopes]
    have hlast : Collapsed.Renders config place ⟨kind,.templateParam index,arguments :: outer⟩
        ⟨kind,found,scopes'⟩ := ⟨rfl,by rw [hplace]; exact hfound⟩
    cases found with
    | referenceType referent inner =>
      have houter : Renders config { place with scopes := outer } (.referenceType referent inner)
          (.referenceType referent inner) := .ground hground
      have hreference := ih houter kind rfl
      refine step_lockstep_left config (hreference.imp fun _ _ h => ?_)
      exact ⟨h.kind,h.referent⟩
    | templateParam index => exact absurd hground (Node.not_ground_param index)
    | _ => exact Holds.bind (step_lockstep ho) fun _ _ _ => Holds.pure hlast

theorem Renders.collapse (h : Renders config place node node') (place' : Place)
    (kind : ReferenceKind) :
    (lockstep true).Holds (Collapsed.Renders config place) (collapse config place node kind)
      (collapse config' place' node' kind) := by
  unfold Printing.collapse
  cases hscopes : place'.scopes with
  | nil => exact collapseIn_renders ho _ _ h kind
  | cons arguments outer => exact collapseIn_renders ho _ _ h kind

omit ho in
theorem packSize_lockstep (config : Config) (place : Place) (pattern : Node) :
    (lockstep true).Alike (packSize config place pattern) (pure (packCount place pattern)) := by
  have among : ∀ nodes, (lockstep true).Alike (packSizeAmong config place nodes)
      (pure (packCountAmong place nodes)) := by
    intro nodes
    fun_induction packSizeAmong config place nodes with
    | case1 =>
      rw [packCountAmong]
      exact Holds.pure rfl
    | case2 node others ih =>
      refine step_lockstep_left config ?_
      revert ih
      split
      · intro ih
        rw [packCountAmong]
        cases place.argument? _ with
        | none => exact ih
        | some argument =>
          cases argument with
          | templateArgPack arguments => exact Holds.pure rfl
          | _ => exact ih
      · rw [packCountAmong]
        exact id
      · rw [packCountAmong]
        exact id
      · rw [packCountAmong]
        · exact id
        all_goals assumption
  exact among _

/-- No pack is found in a pattern without parameters, wherever it is searched for. -/
theorem packSize_ground {pattern : Node} (h : pattern.Ground) (place place' : Place) :
    (lockstep true).Alike (packSize config place pattern) (packSize config' place' pattern) := by
  have among : ∀ nodes, (∀ node ∈ nodes, node.Ground) → (lockstep true).Alike
      (packSizeAmong config place nodes) (packSizeAmong config' place' nodes) := by
    intro nodes
    fun_induction packSizeAmong config place nodes with
    | case1 =>
      intro _
      rw [packSizeAmong]
      exact Holds.pure rfl
    | case2 node others ih =>
      intro hnodes
      obtain ⟨hnode,hothers⟩ := List.forall_mem_cons.mp hnodes
      rw [packSizeAmong.eq_def config' place' (node :: others)]
      refine step_then_alike (parallel_lockstep ho) ?_
      revert ih
      split
      · exact absurd hnode (Node.not_ground_param _)
      · exact fun ih => ih hothers
      · exact fun ih => ih hothers
      · intro ih
        refine ih fun child hchild => ?_
        rcases List.mem_append.mp hchild with hchild | hchild
        · exact hnode.child (List.mem_reverse.mp hchild)
        · exact hothers child hchild
  exact among _ fun node hnode => by
    cases List.mem_singleton.mp hnode
    exact h

omit ho in
/-- The type of a literal is no parameter, so it shows in the literal's text what type it is. -/
theorem Renders.literal (h : Renders config place node node')
    (hparam : ∀ index, node ≠ .templateParam index) :
    integerSuffix? node = integerSuffix? node' ∧
      ∀ value, numberFormat? node value = numberFormat? node' value := by
  cases h.view with
  | param => exact absurd rfl (hparam _)
  | kept hkeeps _ => cases node <;> exact ⟨rfl,fun _ => rfl⟩
  | apart hnode hnode' =>
    obtain ⟨hsuffix,htext⟩ := literal_apart hnode
    obtain ⟨hsuffix',htext'⟩ := literal_apart hnode'
    exact ⟨hsuffix.trans hsuffix'.symm,fun value => (htext value).trans (htext' value).symm⟩

end

end MangledNames.Printing
