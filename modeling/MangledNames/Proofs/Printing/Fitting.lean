import MangledNames.Proofs.Printing.Meeting
import MangledNames.Proofs.Printing.Sound
set_option autoImplicit false

/-!
When template parameters can be resolved before printing: what is asked of the names of functions,
of parameters, of literals and of expansions that are met.
-/

namespace MangledNames.Printing

open Node

/-- A pattern refers to a pack of so many elements. Expansions inside it have packs of their own. -/
inductive RefersTo (place : Place) (size : Nat) : Node → Prop
  | param {index : Nat} {arguments : List Node} :
    place.argument? index = some (.templateArgPack arguments) → arguments.length = size →
    RefersTo place size (.templateParam index)
  | child {node child : Node} : node.pattern? = none → child ∈ node.children →
    RefersTo place size child → RefersTo place size node

/-- A pattern of which there is one copy for each element of the packs it refers to. -/
structure Expandable (config : Config) (place : Place) (pattern : Node) : Prop where
  noEncoding : ∀ e, ¬Within (.encoding e) pattern
  refers : ∃ size, RefersTo place size pattern
  common : ∀ size size', RefersTo place size pattern → RefersTo place size' pattern → size = size'
  shows : ∀ size, RefersTo place size pattern → ∀ i < size,
    Shows config { place with packIndex := some i } pattern

/-- What is asked of a node at the place where it is met. -/
def Fits (config : Config) (place : Place) : Node → Prop
  | .encoding e =>
    ∀ arguments, templateArgsOf e.name = some arguments → ∀ argument ∈ arguments, argument.Ground
  | .templateParam index => ∃ argument, place.argument? index = some argument
  | .integerLiteral type _ => ∀ index, type ≠ .templateParam index
  | .packExpansion pattern | .packExpansionExpression pattern => Expandable config place pattern
  | _ => True

theorem RefersTo.elsewhere {place place' : Place} {size : Nat} {node : Node}
    (h : RefersTo place size node) (hplace : place.argument? = place'.argument?) :
    RefersTo place' size node := by
  induction h with
  | param hargument hlength => exact .param (hplace ▸ hargument) hlength
  | child hnode hchild _ ih => exact .child hnode hchild ih

section
variable {config : Config} {place place' : Place} {node part : Node}

theorem RefersTo.of_printed {size : Nat} (hpart : part ∈ node.printed)
    (h : RefersTo place size part) : RefersTo place size node := by
  have hnode : node.pattern? = none := by
    cases node <;> first | rfl | cases hpart
  rcases children_of_printed hpart with hchild | ⟨group,hgroup,hplain,hchild⟩
  · exact .child hnode hchild h
  · exact .child hnode hgroup (.child hplain hchild h)

theorem within_of_printed {inner : Node} (hpart : part ∈ node.printed) (h : Within inner part) :
    Within inner node := by
  rcases children_of_printed hpart with hchild | ⟨group,hgroup,_,hchild⟩
  · exact .child hchild h
  · exact .child hgroup (.child hchild h)

theorem pattern?_eq_none (hexpansion : ∀ pattern, node ≠ .packExpansion pattern)
    (hexpression : ∀ pattern, node ≠ .packExpansionExpression pattern) : node.pattern? = none := by
  unfold pattern?
  split
  · exact absurd rfl (hexpansion _)
  · exact absurd rfl (hexpression _)
  · rfl

/-- A pack that the search finds is referred to. -/
theorem refersTo_of_packCountAmong {nodes : List Node} {size : Nat}
    (h : packCountAmong place nodes = some size) : ∃ node ∈ nodes, RefersTo place size node := by
  have later : ∀ {node : Node} {others : List Node},
      (∃ found ∈ others, RefersTo place size found) →
        ∃ found ∈ node :: others, RefersTo place size found := by
    rintro node others ⟨found,hfound,hrefers⟩
    exact ⟨found,.tail _ hfound,hrefers⟩
  fun_induction packCountAmong place nodes with
  | case1 => cases h
  | case2 others index arguments hargument =>
    cases h
    exact ⟨_,.head _,.param hargument rfl⟩
  | case3 others index hargument ih => exact later (ih h)
  | case4 others pattern ih => exact later (ih h)
  | case5 others pattern ih => exact later (ih h)
  | case6 others node hparam hexpansion hexpression ih =>
    obtain ⟨found,hfound,hrefers⟩ := ih h
    rcases List.mem_append.mp hfound with hfound | hfound
    · refine ⟨node,.head _,.child ?_ (List.mem_reverse.mp hfound) hrefers⟩
      exact pattern?_eq_none hexpansion hexpression
    · exact later ⟨found,hfound,hrefers⟩

theorem packCountAmong_isSome {nodes : List Node} {size : Nat} (hpart : part ∈ nodes)
    (h : RefersTo place size part) : (packCountAmong place nodes).isSome = true := by
  fun_induction packCountAmong place nodes generalizing part with
  | case1 => cases hpart
  | case2 => rfl
  | case3 others index hargument ih =>
    cases hpart with
    | head =>
      cases h with
      | param hfound _ => exact absurd hfound (hargument _)
      | child _ hchild _ => cases hchild
    | tail _ hpart => exact ih hpart h
  | case4 others pattern ih =>
    cases hpart with
    | head =>
      cases h with
      | child hnode _ _ => cases hnode
    | tail _ hpart => exact ih hpart h
  | case5 others pattern ih =>
    cases hpart with
    | head =>
      cases h with
      | child hnode _ _ => cases hnode
    | tail _ hpart => exact ih hpart h
  | case6 others node hparam hexpansion hexpression ih =>
    cases hpart with
    | head =>
      cases h with
      | param => exact absurd rfl (hparam _)
      | child _ hchild h =>
        exact ih (List.mem_append_left _ (List.mem_reverse.mpr hchild)) h
    | tail _ hpart => exact ih (List.mem_append_right _ hpart) h

/-- The size that is found is that of all packs in the pattern. -/
theorem Expandable.packCount {pattern : Node} (h : Expandable config place pattern) :
    ∃ size, packCount place pattern = some size ∧ RefersTo place size pattern := by
  obtain ⟨size,hrefers⟩ := h.refers
  obtain ⟨found,hfound⟩ := Option.isSome_iff_exists.mp (packCountAmong_isSome (.head []) hrefers)
  obtain ⟨node,hnode,hrefers'⟩ := refersTo_of_packCountAmong hfound
  cases List.mem_singleton.mp hnode
  exact ⟨found,hfound,hrefers'⟩

theorem listSound_iff {nodes : Option (List Node)} :
    ListSound nodes ↔ ∀ node ∈ nodes.getD [], node.Sound := by
  cases nodes with
  | none => simp [ListSound]
  | some nodes => exact allSound_iff

theorem optionSound_iff {node : Option Node} : OptionSound node ↔
    ∀ part ∈ node.toList, part.Sound := by
  cases node <;> simp [OptionSound]

theorem dimensionSound_iff {bound : Dimension Node} :
    DimensionSound bound ↔ ∀ part ∈ bound.nodes, part.Sound := by
  cases bound <;> simp [DimensionSound,Dimension.nodes]

theorem specSound_iff {spec : Option (ExceptionSpec Node)} :
    SpecSound spec ↔ ∀ part ∈ (spec.map ExceptionSpec.nodes).getD [], part.Sound := by
  match spec with
  | none => simp [SpecSound]
  | some (.noexcept condition) => exact optionSound_iff
  | some (.throwing types) => exact allSound_iff

theorem sound_of_printed (h : node.Sound) (hpart : part ∈ node.printed) : part.Sound := by
  revert part
  cases node with
  | arrayType element bound =>
    cases bound <;> simpa [printed,Sound,dimensionSound_iff] using h
  | mangledName e cloneSuffix =>
    cases cloneSuffix <;> simp_all [printed,Sound]
  | functionType f =>
    obtain ⟨hreturn,hparameters,hspec⟩ := h
    simp only [printed,List.mem_cons,List.mem_append]
    rintro part (rfl | hpart | hpart)
    · exact hreturn
    · exact allSound_iff.mp hparameters part hpart
    · exact specSound_iff.mp hspec part hpart
  | signature => exact h.elim
  | exceptionSpec => exact h.elim
  | _ =>
    simp_all [printed,Sound,allSound_iff,listSound_iff,optionSound_iff,dimensionSound_iff,or_imp]

/-- What is known of a node that is met in a sound tree. -/
structure Good (place : Place) (node : Node) : Prop where
  sound : node.Sound
  scopes : ∀ arguments ∈ place.scopes, ∀ argument ∈ arguments, argument.Ground
  noEncoding : ∀ i, place.packIndex = some i → ∀ e, ¬Within (.encoding e) node
  inPack : ∀ i, place.packIndex = some i → ∀ size, RefersTo place size node → i < size

theorem Good.of_printed (h : Good place node) (hpart : part ∈ node.printed) : Good place part where
  sound := sound_of_printed h.sound hpart
  scopes := h.scopes
  noEncoding i hi e hwithin := h.noEncoding i hi e (within_of_printed hpart hwithin)
  inPack i hi size hrefers := h.inPack i hi size (.of_printed hpart hrefers)

/-- What has template arguments around it stands in no pattern. -/
theorem Good.enter (h : Good place node) {e : Encoding Node} (hwithin : Within (.encoding e) node)
    (hfits : Fits config place (.encoding e)) (hpart : part.Sound) :
    Good (place.enter (templateArgsOf e.name)) part := by
  have hnone : ∀ i, (place.enter (templateArgsOf e.name)).packIndex ≠ some i := by
    intro i hi
    refine h.noEncoding i ?_ e hwithin
    cases hargs : templateArgsOf e.name <;> simpa [Place.enter,hargs] using hi
  refine ⟨hpart,?_,fun i hi => absurd hi (hnone i),fun i hi => absurd hi (hnone i)⟩
  cases hargs : templateArgsOf e.name with
  | none => exact h.scopes
  | some arguments => exact List.forall_mem_cons.mpr ⟨hfits arguments hargs,h.scopes⟩

theorem sound_of_encoding {e : Encoding Node} (h : (Node.encoding e).Sound)
    (hpart : part ∈ e.printed config) : part.Sound := by
  obtain ⟨name,signature⟩ := e
  obtain ⟨hname,hsignature⟩ := h
  rcases List.mem_cons.mp hpart with rfl | hpart
  · exact hname
  · cases signature with
    | none => cases hpart
    | some s =>
      obtain ⟨hreturn,hparameters⟩ := hsignature
      simp only [Option.map_some,Option.getD_some,List.mem_append] at hpart
      rcases hpart with hpart | hpart
      · refine optionSound_iff.mp hreturn part ?_
        split at hpart
        · cases hpart
        · exact hpart
      · refine allSound_iff.mp hparameters part ?_
        split at hpart
        · cases hpart
        · exact hpart

theorem Good.of_parts (h : Good place node)
    (hfits : ∀ spot, Met config (place,node) spot → Fits config spot.1 spot.2)
    (hpart : (place',part) ∈ parts config place node) : Good place' part := by
  have hnode : Fits config place node := hfits _ .refl
  have copied : ∀ pattern, pattern.Sound → Expandable config place pattern →
      (place',part) ∈ (List.range ((Printing.packCount place pattern).getD 0)).map (fun i =>
        ({ place with packIndex := some i },pattern)) → Good place' part := by
    intro pattern hpattern hexpandable hcopy
    obtain ⟨i,hi,heq⟩ := List.mem_map.mp hcopy
    cases heq
    obtain ⟨size,hsize,hrefers⟩ := hexpandable.packCount
    rw [hsize,Option.getD_some,List.mem_range] at hi
    refine ⟨hpattern,h.scopes,fun _ _ => hexpandable.noEncoding,?_⟩
    rintro _ ⟨rfl⟩ size' hrefers'
    rw [hexpandable.common size' size (hrefers'.elsewhere rfl) hrefers]
    exact hi
  cases node with
  | encoding e =>
    obtain ⟨part,hprinted,heq⟩ := List.mem_map.mp hpart
    cases heq
    exact h.enter .self hnode (sound_of_encoding h.sound hprinted)
  | localName function entity =>
    have hwithin : Within (.encoding function) (.localName function entity) :=
      .child (by simp [children,fields]) .self
    have hfunction :
        (place,Node.encoding function) ∈ parts config place (.localName function entity) :=
      .head _
    cases hpart with
    | head =>
      have hnone : ∀ i, place.packIndex ≠ some i := fun i hi => h.noEncoding i hi function hwithin
      exact ⟨h.sound.1,h.scopes,fun i hi => absurd hi (hnone i),fun i hi => absurd hi (hnone i)⟩
    | tail _ hpart =>
      cases List.mem_singleton.mp hpart
      exact h.enter hwithin (hfits _ (.single hfunction)) h.sound.2
  | closureTypeName parameters number =>
    obtain ⟨part,hparameter,heq⟩ := List.mem_map.mp hpart
    cases heq
    have hchild : part ∈ (closureTypeName parameters number).children := by
      simpa [children,fields] using hparameter
    refine ⟨allSound_iff.mp h.sound.2 part hparameter,h.scopes,?_,?_⟩
    · exact fun i hi e hwithin => h.noEncoding i hi e (.child hchild hwithin)
    · exact fun i hi size hrefers => h.inPack i hi size (.child rfl hchild (hrefers.elsewhere rfl))
  | packExpansion pattern => exact copied pattern h.sound hnode hpart
  | packExpansionExpression pattern => exact copied pattern h.sound hnode hpart
  | templateParam index => cases hpart
  | _ =>
    obtain ⟨part,hprinted,heq⟩ := List.mem_map.mp hpart
    cases heq
    exact h.of_printed hprinted

theorem element_ground {packIndex : Option Nat} {argument : Node}
    (h : argument.Ground) (index : Nat) (hpack : ∀ i, packIndex = some i →
        ∀ arguments, argument = .templateArgPack arguments →
      i < arguments.length) :
    ∃ found, element packIndex index argument = .ok found ∧ found.Ground := by
  unfold element
  split
  · rename_i arguments i
    have hi := hpack i rfl arguments rfl
    rw [List.getElem?_eq_getElem hi]
    exact ⟨_,rfl,h.child (by simp [children,fields])⟩
  · exact ⟨_,rfl,h⟩

theorem Good.resolved (h : Good place node) (hfits : Fits config place node) :
    Resolved config place node := by
  have expanded : ∀ pattern, Expandable config place pattern →
      ∃ size, Printing.packCount place pattern = some size ∧
        ∀ i < size, Shows config { place with packIndex := some i } pattern := by
    intro pattern hexpandable
    obtain ⟨size,hsize,hrefers⟩ := hexpandable.packCount
    exact ⟨size,hsize,hexpandable.shows size hrefers⟩
  cases node with
  | templateParam index =>
    obtain ⟨argument,hargument⟩ := hfits
    cases hscopes : place.scopes with
    | nil => simp [Place.argument?,hscopes] at hargument
    | cons arguments outer =>
      have hindex : arguments[index]? = some argument := by
        simpa [Place.argument?,hscopes] using hargument
      have hground : argument.Ground :=
        h.scopes arguments (by simp [hscopes]) argument (List.mem_of_getElem? hindex)
      have helement : ∃ found, element place.packIndex index argument = .ok found ∧
          found.Ground := by
        refine element_ground hground index fun i hi elements hpack => ?_
        subst hpack
        exact h.inPack i hi elements.length (.param hargument rfl)
      obtain ⟨found,hfound,hground'⟩ := helement
      refine ⟨found,outer,?_,hground'⟩
      simp only [resolve,hscopes,hindex,hfound]
      rfl
  | packExpansion pattern => exact expanded pattern hfits
  | packExpansionExpression pattern => exact expanded pattern hfits
  | integerLiteral type value => exact hfits
  | floatLiteral type value =>
    rintro index rfl
    exact absurd h.sound.2.1 Bool.false_ne_true
  | _ => exact trivial

/-- What is met in a sound tree is resolved if everything fits where it is met. -/
theorem resolves_of_fits (hnode : Good place node)
    (hfits : ∀ spot, Met config (place,node) spot → Fits config spot.1 spot.2) :
    Resolves config place node := by
  have good : ∀ spot, Met config (place,node) spot → Good spot.1 spot.2 := by
    intro spot hmet
    induction hmet with
    | refl => exact hnode
    | tail hmet hpart ih =>
      exact ih.of_parts (fun spot hspot => hfits spot (hmet.trans hspot)) hpart
  exact fun spot hmet => (good spot hmet).resolved (hfits spot hmet)

theorem fits_of_parts (h : Fits config place node)
    (hparts : ∀ part ∈ parts config place node,
      ∀ spot, Met config part spot → Fits config spot.1 spot.2) :
    ∀ spot, Met config (place,node) spot → Fits config spot.1 spot.2 := by
  intro spot hmet
  rcases Relation.ReflTransGen.cases_head hmet with rfl | ⟨part,hpart,hmet⟩
  · exact h
  · exact hparts part hpart spot hmet

theorem fits_of_no_parts (h : Fits config place node) (hparts : parts config place node = []) :
    ∀ spot, Met config (place,node) spot → Fits config spot.1 spot.2 := by
  refine fits_of_parts h fun part hpart => ?_
  rw [hparts] at hpart
  cases hpart

end

end MangledNames.Printing
