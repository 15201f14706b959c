import MangledNames.Proofs.Printing.Sheet
import MangledNames.Proofs.Printing.Parallel
import MangledNames.Proofs.Node.Sound
import MangledNames.Printing.Render
set_option autoImplicit false

/-!
Printing sound nodes among sound template arguments breaks no promise, and what the arguments of a
template hand out is sound again.
-/

namespace MangledNames.Printing

/-- Whatever a parameter can stand for is sound. -/
def SoundScopes (scopes : Scopes) : Prop := ∀ arguments ∈ scopes, ∀ node ∈ arguments, node.Sound

theorem soundScopes_cons {arguments : List Node} {outer : Scopes} :
    SoundScopes (arguments :: outer) ↔ (∀ node ∈ arguments, node.Sound) ∧ SoundScopes outer := by
  simp [SoundScopes]

/-- A computation that breaks no promise and withdraws only what it wrote. -/
abbrev Prints {α : Type} (m : Printer α) (p : α → Prop := fun _ => True) : Prop := Runs 0 m p

theorem element_sound {packIndex : Option Nat} {index : Nat} {argument found : Node}
    (h : argument.Sound) (hfound : element packIndex index argument = .ok found) : found.Sound := by
  unfold element at hfound
  split at hfound
  · split at hfound
    · rename_i hargument
      cases hfound
      exact Node.allSound_iff.mp h _ (List.mem_of_getElem? hargument)
    · cases hfound
  · cases hfound
    exact h

theorem resolve_sound {place : Place} (h : SoundScopes place.scopes) {index : Nat} {node : Node}
    {scopes : Scopes} (hfound : resolve place index = .ok (node,scopes)) :
    node.Sound ∧ SoundScopes scopes := by
  unfold resolve at hfound
  split at hfound
  · cases hfound
  · rename_i arguments outer hscopes
    rw [hscopes,soundScopes_cons] at h
    split at hfound
    · cases hfound
    · rename_i argument hargument
      cases helement : element place.packIndex index argument with
      | error error =>
        rw [helement] at hfound
        cases hfound
      | ok found =>
        rw [helement] at hfound
        cases hfound
        exact ⟨element_sound (h.1 _ (List.mem_of_getElem? hargument)) helement,h.2⟩

theorem hasRightSideWithin_prints (config : Config) {parameter : Nat → Printer Bool}
    (h : ∀ index, Prints (parameter index)) (node : Node) :
    Prints (hasRightSideWithin config parameter node) := by
  fun_induction hasRightSideWithin config parameter node with
  | case1 inner cv ih => exact ih
  | case2 inner qualifier arguments ih => exact ih
  | case3 index => exact h index
  | case4 => exact Runs.pure trivial
  | case5 => exact Runs.pure trivial
  | case6 inner ih => exact (step_prints config).first fun _ _ => ih
  | case7 inner kind ih => exact (step_prints config).first fun _ _ => ih
  | case8 classType inner ih => exact (step_prints config).first fun _ _ => ih
  | case9 => exact Runs.pure trivial

theorem hasRightSide_prints (config : Config) (place : Place) (node : Node) :
    Prints (hasRightSide config place node) := by
  have within : ∀ (scopes : Scopes) (node : Node),
      Prints (hasRightSideIn config place.packIndex scopes node) := by
    intro scopes
    induction scopes with
    | nil => exact fun node => hasRightSideWithin_prints config (fun _ => Runs.pure trivial) node
    | cons arguments outer ih =>
      refine fun node => hasRightSideWithin_prints config (fun index => ?_) node
      split
      · exact Runs.pure trivial
      · exact (ofExcept_prints (p := fun _ => True) fun _ _ => trivial).first fun node _ => ih node
  unfold hasRightSide
  exact (step_prints config).first fun _ _ => within _ _

structure Collapsed.Sound (c : Collapsed) : Prop where
  referent : c.referent.Sound
  scopes : SoundScopes c.scopes

theorem collapseWithin_prints (config : Config) {scopes : Scopes} (hscopes : SoundScopes scopes)
    {parameter : ReferenceKind → Nat → Printer Collapsed}
    (h : ∀ kind index, Prints (parameter kind index) Collapsed.Sound) (kind : ReferenceKind)
    {node : Node} (hnode : node.Sound) :
    Prints (collapseWithin config scopes parameter kind node) Collapsed.Sound := by
  fun_induction collapseWithin config scopes parameter kind node with
  | case1 kind referent inner ih => exact (step_prints config).first fun _ _ => ih hnode
  | case2 kind index => exact (step_prints config).first fun _ _ => h kind index
  | case3 kind node =>
    exact (step_prints config).first fun _ _ => Runs.pure ⟨hnode,hscopes⟩

theorem collapseIn_prints (config : Config) (packIndex : Option Nat) {scopes : Scopes}
    (hscopes : SoundScopes scopes) (kind : ReferenceKind) {node : Node} (hnode : node.Sound) :
    Prints (collapseIn config packIndex scopes kind node) Collapsed.Sound := by
  induction scopes generalizing kind node with
  | nil =>
    refine collapseWithin_prints config hscopes (fun kind index => ?_) kind hnode
    exact Runs.pure (Collapsed.Sound.mk (c := ⟨kind,.templateParam index,[]⟩) trivial hscopes)
  | cons arguments outer ih =>
    have houter := soundScopes_cons.mp hscopes
    refine collapseWithin_prints config hscopes (fun kind index => ?_) kind hnode
    split
    · exact Runs.pure ⟨trivial,hscopes⟩
    · rename_i argument hargument
      refine (ofExcept_prints (p := Node.Sound) fun found hfound =>
        element_sound (houter.1 _ (List.mem_of_getElem? hargument)) hfound).first fun found h => ?_
      split
      · exact ih houter.2 kind h
      · exact Runs.pure ⟨trivial,hscopes⟩

theorem packSize_prints (config : Config) (place : Place) (pattern : Node) :
    Prints (packSize config place pattern) := by
  have among : ∀ nodes, Prints (packSizeAmong config place nodes) := by
    intro nodes
    fun_induction packSizeAmong config place nodes with
    | case1 => exact Runs.pure trivial
    | case2 node others ih =>
      refine (step_prints config).first fun _ _ => ?_
      revert ih
      split
      · intro ih
        split
        · exact Runs.pure trivial
        · exact ih
      · exact id
      · exact id
      · exact id
  exact among _

theorem templateArgsOf_sound {node : Node} (h : node.Sound) {arguments : List Node}
    (hfound : templateArgsOf node = some arguments) : ∀ node ∈ arguments, node.Sound := by
  fun_induction templateArgsOf node with
  | case1 name arguments =>
    cases hfound
    exact Node.allSound_iff.mp h.2
  | case2 scope name ih => exact ih h.2 hfound
  | case3 name tags ih => exact ih h.2 hfound
  | case4 function entity found hentity ih => exact ih h.2 (hentity.trans hfound)
  | case5 entity hentity name signature ih ih' => exact ih' h.1.1 hfound
  | case6 => cases hfound

end MangledNames.Printing
