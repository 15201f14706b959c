import MangledNames.Proofs.Limits
import MangledNames.Proofs.Safety
import MangledNames.Proofs.Printing.Fitting
import MangledNames.Proofs.Printing.InstanceHalves
set_option autoImplicit false

/-!
Printing with parameters looked up on the way is printing the tree in which they are replaced.
-/

namespace MangledNames

open Printing

/-- A sound tree, outside of any template, and its instance have the same text unless a limit cuts
off one of them. -/
theorem Node.render_inst {tree : Node} (hsound : tree.Sound) {config : Config}
    (hfits : ∀ spot, Met config ({},tree) spot → Fits config spot.1 spot.2) :
    CutOff (tree.render config) ∨ CutOff ((tree.inst {}).render config) ∨
      ∃ text, tree.render config = .ok text ∧ (tree.inst {}).render config = .ok text := by
  have hgood : Good {} tree := ⟨hsound,nofun,nofun,nofun⟩
  have hrenders : Renders config {} tree (tree.inst {}) := .inst (resolves_of_fits hgood hfits)
  have hsame : SameOptions true config config := ⟨rfl,rfl,rfl,rfl,nofun⟩
  have hblank : Sheet.Same true (.blank config) (.blank config) := ⟨rfl,rfl,nofun,nofun⟩
  have hprint := (Halves.levels_renders hsame (levelsOf config) (levelsOf config) {} hrenders).print
  have hresults := hprint.results _ _ hblank
  have herror := render_outcome hsound config
  rw [Node.render_ending] at herror
  rw [Node.render_ending,Node.render_ending]
  generalize (Halves.levels config (levelsOf config)).print {} tree (.blank config) =
    result at hresults herror ⊢
  generalize (Halves.levels config (levelsOf config)).print {} (tree.inst {}) (.blank config) =
    result' at hresults ⊢
  cases result with
  | ok _ s =>
    cases result' with
    | ok _ t =>
      refine .inr (.inr ⟨s.output.text,rfl,?_⟩)
      unfold ending Output.text
      rw [hresults.2.chunks]
    | error g t => exact .inr (.inl ⟨g,rfl,hresults.2⟩)
  | error f s =>
    cases result' with
    | ok _ t => exact .inl ⟨f,rfl,hresults⟩
    | error g t =>
      rcases hresults with hcut | hcut | hsame
      · exact .inl ⟨f,rfl,hcut⟩
      · exact .inr (.inl ⟨g,rfl,hcut.2⟩)
      · exact absurd herror (hsame.1.2 rfl)

/-- Looking up parameters while printing gives the text of the tree in which they are replaced by
what they stand for, and expansions by packs of copies of their patterns, unless a limit cuts off
one of both. -/
theorem resolving_is_instantiating {raw : String} {config₀ : Config} {symbol : Symbol}
    (hparse : Symbol.parse raw config₀ = .ok symbol) (config : Config)
    (hfits : ∀ spot, Met config ({},symbol.tree) spot → Fits config spot.1 spot.2) :
    (∃ e, symbol.tree.render config = .error (.error e) ∧ e.category = .limit) ∨
      (∃ e, (symbol.tree.inst {}).render config = .error (.error e) ∧ e.category = .limit) ∨
      ∃ text, symbol.tree.render config = .ok text ∧
        (symbol.tree.inst {}).render config = .ok text := by
  have hsound := Symbol.parse_outcome raw config₀
  rw [hparse] at hsound
  rcases Node.render_inst hsound.tree hfits with ⟨_,hcut,e,rfl,he⟩ | ⟨_,hcut,e,rfl,he⟩ | hsame
  · exact .inl ⟨e,hcut,he⟩
  · exact .inr (.inl ⟨e,hcut,he⟩)
  · exact .inr (.inr hsame)

def pack : Node := .templateArgPack [.builtinType .int, .builtinType .char]

/-- A function of a pack that takes each of its elements. -/
def packTree (name : String) (cv : CvQualifiers) (ref : Option ReferenceKind) : Node :=
  .mangledName
    (.encoding ⟨.templateName (.sourceName name) [pack],
      some ⟨some (.builtinType .void), [.packExpansion (.templateParam 0)], cv, ref⟩⟩)
    none

def packPlace : Place := { scopes := [[pack]] }

theorem pack_ground : pack.Ground := by
  refine Node.ground_of_children nofun fun element helement => ?_
  have htypes : element = .builtinType .int ∨ element = .builtinType .char := by
    simpa [pack,Node.children,Node.fields] using helement
  rcases htypes with rfl | rfl
  · exact Node.ground_builtinType .int
  · exact Node.ground_builtinType .char

theorem packPattern_expandable : Expandable .standard packPlace (.templateParam 0) where
  noEncoding := by
    rintro e (_ | ⟨hchild,_⟩)
    cases hchild
  refers := ⟨2,.param rfl rfl⟩
  common := by
    rintro _ _ (⟨⟨rfl⟩,rfl⟩ | ⟨_,hchild,_⟩) (⟨⟨rfl⟩,rfl⟩ | ⟨_,hchild',_⟩)
    · rfl
    · cases hchild'
    · cases hchild
    · cases hchild
  shows := by
    rintro _ (⟨⟨rfl⟩,rfl⟩ | ⟨_,hchild,_⟩) i hi
    · match i, hi with
      | 0, _ => exact shows_param rfl (by decide)
      | 1, _ => exact shows_param rfl (by decide)
    · cases hchild

def packName? : Node → Option String
  | .mangledName (.encoding ⟨.templateName (.sourceName name)
      [.templateArgPack [.builtinType .int,.builtinType .char]],
      some ⟨some (.builtinType .void),[.packExpansion (.templateParam 0)],_,_⟩⟩) none => some name
  | _ => none

theorem packName?_eq {tree : Node} {name : String} (h : packName? tree = some name) :
    ∃ cv ref, tree = packTree name cv ref := by
  unfold packName? at h
  split at h
  · cases h
    exact ⟨_,_,rfl⟩
  · cases h

theorem packTree_fits (name : String) (cv : CvQualifiers) (ref : Option ReferenceKind) :
    ∀ spot, Met .standard ({},packTree name cv ref) spot → Fits .standard spot.1 spot.2 := by
  refine fits_of_parts trivial fun part hpart => ?_
  cases List.mem_singleton.mp hpart
  refine fits_of_parts ?_ fun part hpart => ?_
  · rintro arguments ⟨rfl⟩ argument hargument
    cases List.mem_singleton.mp hargument
    exact pack_ground
  have hparts : part = (packPlace,.templateName (.sourceName name) [pack]) ∨
      part = (packPlace,.builtinType .void) ∨
      part = (packPlace,.packExpansion (.templateParam 0)) := by
    rcases hpart with _ | ⟨_,_ | ⟨_,_ | ⟨_,hpart⟩⟩⟩
    · exact .inl rfl
    · exact .inr (.inl rfl)
    · exact .inr (.inr rfl)
    · cases hpart
  rcases hparts with rfl | rfl | rfl
  · refine fits_of_parts trivial fun part hpart => ?_
    have hparts : part = (packPlace,.sourceName name) ∨ part = (packPlace,pack) := by
      rcases hpart with _ | ⟨_,_ | ⟨_,hpart⟩⟩
      · exact .inl rfl
      · exact .inr rfl
      · cases hpart
    rcases hparts with rfl | rfl
    · exact fits_of_no_parts trivial rfl
    · refine fits_of_parts trivial fun element helement => ?_
      rcases helement with _ | ⟨_,_ | ⟨_,helement⟩⟩
      · exact fits_of_no_parts trivial rfl
      · exact fits_of_no_parts trivial rfl
      · cases helement
  · exact fits_of_no_parts trivial rfl
  · refine fits_of_parts packPattern_expandable fun copy hcopy => ?_
    obtain ⟨i,_,rfl⟩ := List.mem_map.mp hcopy
    exact fits_of_no_parts ⟨pack,rfl⟩ rfl

/-- Both texts are whole: no limit cuts one of them off. -/
theorem resolving_is_instantiating_pack :
    ∃ symbol, Symbol.parse "_Z1fIJicEEvDpT_" .standard = .ok symbol ∧
      (∀ spot, Met .standard ({},symbol.tree) spot → Fits .standard spot.1 spot.2) ∧
      symbol.tree.render .standard = .ok "void f<int, char>(int, char)" ∧
      (symbol.tree.inst {}).render .standard = .ok "void f<int, char>(int, char)" := by
  have hshape : ((Symbol.parse "_Z1fIJicEEvDpT_" .standard).toOption.bind fun symbol =>
      packName? symbol.tree) = some "f" := by decide +kernel
  have htext : ((Symbol.parse "_Z1fIJicEEvDpT_" .standard).toOption.map fun symbol =>
      symbol.tree.render .standard) = some (.ok "void f<int, char>(int, char)") := by decide +kernel
  have hwhole : ((Symbol.parse "_Z1fIJicEEvDpT_" .standard).toOption.map fun symbol =>
      ((symbol.tree.inst {}).render .standard).toBool) = some true := by decide +kernel
  cases hparse : Symbol.parse "_Z1fIJicEEvDpT_" .standard with
  | error fault =>
    rw [hparse] at hshape
    cases hshape
  | ok symbol =>
    rw [hparse] at hshape htext hwhole
    obtain ⟨cv,ref,htree⟩ := packName?_eq hshape
    have hfits := htree ▸ packTree_fits "f" cv ref
    have hprinted : symbol.tree.render .standard = .ok "void f<int, char>(int, char)" :=
      Option.some.inj htext
    have hended : ((symbol.tree.inst {}).render .standard).toBool = true := Option.some.inj hwhole
    refine ⟨_,rfl,hfits,hprinted,?_⟩
    rcases resolving_is_instantiating hparse .standard hfits with ⟨_,hcut,_⟩ | ⟨_,hcut,_⟩ | hsame
    · rw [hprinted] at hcut
      cases hcut
    · rw [hcut] at hended
      cases hended
    · obtain ⟨text,hresolved,hinstance⟩ := hsame
      cases hprinted.symm.trans hresolved
      exact hinstance

end MangledNames
