import MangledNames.Proofs.Brackets
import MangledNames.Proofs.Instances
import MangledNames.Proofs.Printing.CommaHalves
import MangledNames.Symbol
set_option autoImplicit false

/-!
Commas: where lists and expanded packs have them, and what stands on either side of them.
-/

namespace MangledNames

namespace Printing

def elementPrinter (config : Config) (n : Nat) (place : Place) (pattern : Node) (index : Nat) :
    Printer Unit :=
  (Halves.levels config n).print { place with packIndex := some index } pattern

theorem list_text {config : Config} {n : Nat} {place : Place} {nodes : List Node} {s t : Sheet}
    (hs : s.Sound) (hrun : (Halves.levels config n).printList place nodes s = .ok () t) :
    ∃ texts, ItemTexts false ((Halves.levels config n).print place) false
      s.output.text nodes texts ∧
      t.output.text = s.output.text ++ ", ".intercalate (texts.filter (· ≠ "")) := by
  obtain ⟨_,texts,hitems,htext⟩ :=
    listFrom_texts (fun node _ => Halves.print_grows n place node) hs hrun
  exact ⟨texts,hitems,by rw [htext,furtherText_eq]⟩

theorem pack_text {config : Config} {n : Nat} {place : Place} {pattern : Node}
    {size : Nat} {s t : Sheet} (hs : s.Sound) (hsize : packCount place pattern = some size)
    (hrun : packExpansion config (Halves.levels config n) place pattern s = .ok () t) :
    ∃ texts, ItemTexts true (elementPrinter config n place pattern) false s.output.text
        (List.range size) texts ∧
      t.output.text = s.output.text ++ ", ".intercalate texts := by
  obtain ⟨found,s₁,hfound,hrun⟩ := bind_ok hrun
  obtain ⟨rfl,hsame⟩ := packSize_ok hfound
  rw [hsize] at hrun
  obtain ⟨_,texts,hitems,htext⟩ := packElements_texts
    (fun i _ => Halves.print_grows n { place with packIndex := some i } pattern)
    (hs.of_output hsame) hrun
  rw [hsame] at hitems htext
  rw [← List.range_eq_range'] at hitems
  exact ⟨texts,hitems,by rw [htext]; exact congrArg _ (furtherText_eq texts)⟩

theorem render_separated {config : Config} {node : Node} (h : Clean config ({},node))
    {text : String} (htext : node.render config = .ok text) : Separated text.toList :=
  (Says.render (print_makes (Halves.levels_flank config _) h) htext).tame.separated

/-- What is visited while a symbol is printed is clean, if its names are and all elements show. -/
theorem clean_of_parse {raw : String} {config : Config} {symbol : Symbol}
    (hparse : Symbol.parse raw config = .ok symbol) (hnames : symbol.tree.Throughout CleanNames)
    (helements : ∀ spot, Visited config ({},symbol.tree) spot → ShowsElements config spot) :
    Clean config ({},symbol.tree) := by
  have hread := Symbol.plain_of_parse hparse
  have hwhole : ThroughoutAt (fun node => CleanNames node ∧ AsRead node) ({},symbol.tree) :=
    ⟨fun part hpart => ⟨hnames part hpart,hread part hpart⟩,List.forall_mem_nil _⟩
  intro spot hvisited
  obtain ⟨hclean,hasRead⟩ := (visited_throughout hvisited hwhole).node.self
  exact ⟨hclean,hasRead,helements spot hvisited⟩

/-- Lists have the texts of the items that have one, with commas between them; expanded packs have
the texts of all elements. So no comma of a demangled text stands next to a bracket on the wrong
side or to another comma, as long as no name has commas or such brackets at its ends and no pack of
several elements has one that shows nothing. -/
theorem commas_separate_items (config : Config) :
    (∀ n place s t, s.Sound →
      (∀ nodes, (Halves.levels config n).printList place nodes s = .ok () t →
        ∃ texts, ItemTexts false ((Halves.levels config n).print place) false
            s.output.text nodes texts ∧
          t.output.text = s.output.text ++ ", ".intercalate (texts.filter (· ≠ ""))) ∧
      ∀ pattern size, packCount place pattern = some size →
        packExpansion config (Halves.levels config n) place pattern s = .ok () t →
        ∃ texts, ItemTexts true (elementPrinter config n place pattern) false s.output.text
            (List.range size) texts ∧
          t.output.text = s.output.text ++ ", ".intercalate texts) ∧
    ∀ raw symbol text, Symbol.parse raw config = .ok symbol → symbol.tree.Throughout CleanNames →
      (∀ spot, Visited config ({},symbol.tree) spot → ShowsElements config spot) →
      demangle raw config = .ok text → Separated text.toList := by
  refine ⟨fun n place s t hs => ⟨fun nodes hrun => list_text hs hrun,fun pattern size hsize hrun =>
    pack_text hs hsize hrun⟩,fun raw symbol text hparse hnames helements htext => ?_⟩
  unfold demangle at htext
  rw [hparse] at htext
  exact render_separated (clean_of_parse hparse hnames helements) htext

/-- Inside a template whose only argument is a pack of two empty packs. -/
def insideEmptyPacks : Place :=
  { scopes := [[.templateArgPack [.templateArgPack [],.templateArgPack []]]] }

theorem emptyPacks_expansion : textOf (packExpansion .standard (Halves.levels .standard 4)
    insideEmptyPacks (.templateParam 0)) = some ", " := by decide +kernel

theorem emptyPacks_count : packCount insideEmptyPacks (.templateParam 0) = some 2 := by
  simp [packCount,packCountAmong,insideEmptyPacks,Place.argument?]

section
variable {config : Config} {whole : Place × Node}

theorem shows_of_visits (hself : ShowsElements config whole)
    (hnext : ∀ next, Visits config whole next → ∀ spot, Visited config next spot →
      ShowsElements config spot) :
    ∀ spot, Visited config whole spot → ShowsElements config spot := by
  intro spot hvisited
  cases hvisited.cases_head with
  | inl hsame => exact hsame ▸ hself
  | inr hmore =>
    obtain ⟨next,hvisits,hrest⟩ := hmore
    exact hnext next hvisits spot hrest

theorem shows_of_no_pattern (h : ThroughoutAt (·.pattern? = none) whole) :
    ∀ spot, Visited config whole spot → ShowsElements config spot := by
  intro spot hvisited pattern size hpattern
  exact absurd ((visited_throughout hvisited h).node.self.symm.trans hpattern) nofun

end

section
variable {p : Node → Prop}

theorem pack_throughout (h : ∀ node, node.spelledNames = [] → node.pattern? = none → p node) :
    pack.Throughout p := by
  have builtin : ∀ type, (Node.builtinType type).Throughout p := fun type =>
    .of_children (h _ rfl rfl) nofun
  refine .of_children (h _ rfl rfl) fun element helement => ?_
  have htypes : element = .builtinType .int ∨ element = .builtinType .char := by
    simpa [pack,Node.children,Node.fields] using helement
  rcases htypes with rfl | rfl
  · exact builtin .int
  · exact builtin .char

theorem packName_throughout {name : String} (hname : p (.sourceName name))
    (h : ∀ node, node.spelledNames = [] → node.pattern? = none → p node) :
    (Node.templateName (.sourceName name) [pack]).Throughout p := by
  have arguments : (Node.templateArgs [pack]).Throughout p :=
    .of_children (h _ rfl rfl) (List.forall_mem_singleton.mpr (pack_throughout h))
  refine .of_children (h _ rfl rfl) (List.forall_mem_cons.mpr ⟨.of_children hname nofun,?_⟩)
  exact List.forall_mem_singleton.mpr arguments

end

theorem packTree_names {name : String} (hname : CleanName name) (cv : CvQualifiers)
    (ref : Option ReferenceKind) : (packTree name cv ref).Throughout CleanNames := by
  have nameless : ∀ node : Node, node.spelledNames = [] → CleanNames node := by
    intro node hnone name hname
    rw [hnone] at hname
    cases hname
  have hspelled : CleanNames (.sourceName name) := List.forall_mem_singleton.mpr hname
  have single : ∀ {node child : Node}, node.spelledNames = [] → node.children = [child] →
      child.Throughout CleanNames → node.Throughout CleanNames := by
    intro node child hnone hchildren hchild
    refine .of_children (nameless node hnone) ?_
    rw [hchildren]
    exact List.forall_mem_singleton.mpr hchild
  have leaf : ∀ {node : Node}, node.spelledNames = [] → node.children = [] →
      node.Throughout CleanNames := by
    intro node hnone hchildren
    refine .of_children (nameless node hnone) ?_
    rw [hchildren]
    exact List.forall_mem_nil _
  refine single rfl rfl (.of_children (nameless _ rfl) (List.forall_mem_cons.mpr
    ⟨packName_throughout hspelled fun node hnone _ => nameless node hnone,?_⟩))
  refine List.forall_mem_singleton.mpr (.of_children (nameless _ rfl) (List.forall_mem_cons.mpr
    ⟨leaf rfl rfl,?_⟩))
  exact List.forall_mem_singleton.mpr (single rfl rfl (leaf rfl rfl))

theorem packPattern_count : packCount packPlace (.templateParam 0) = some 2 := by
  simp [packCount,packCountAmong,packPlace,pack,Place.argument?]

theorem packTree_shows (name : String) (cv : CvQualifiers) (ref : Option ReferenceKind) :
    ∀ spot, Visited .standard ({},packTree name cv ref) spot → ShowsElements .standard spot := by
  have patternless : ∀ node : Node, node.spelledNames = [] → node.pattern? = none →
      node.pattern? = none :=
    fun _ _ hnone => hnone
  have hpack : ScopesThroughout (·.pattern? = none) packPlace.scopes :=
    scopesThroughout_cons.mpr ⟨List.forall_mem_singleton.mpr (pack_throughout patternless),
      List.forall_mem_nil _⟩
  have leaf : ∀ {place : Place} {node : Node}, place.scopes = packPlace.scopes →
    node.pattern? = none →
      node.children = [] → ∀ spot, Visited .standard (place,node) spot →
      ShowsElements .standard spot := by
    intro place node hscopes hnone hchildren
    refine shows_of_no_pattern ⟨.of_children hnone ?_,hscopes ▸ hpack⟩
    rw [hchildren]
    exact List.forall_mem_nil _
  refine shows_of_visits nofun fun next hnext => ?_
  cases hnext with
  | pattern hpattern _ => cases hpattern
  | part hpart =>
  cases List.mem_singleton.mp hpart
  refine shows_of_visits nofun fun next hnext => ?_
  cases hnext with
  | pattern hpattern _ => cases hpattern
  | part hpart =>
  rcases hpart with _ | ⟨_,_ | ⟨_,_ | ⟨_,hpart⟩⟩⟩
  · exact shows_of_no_pattern ⟨packName_throughout rfl patternless,hpack⟩
  · exact leaf rfl rfl rfl
  · refine shows_of_visits ?_ fun next hnext => ?_
    · rintro _ _ ⟨⟩ hsize _ i hi
      cases packPattern_count.symm.trans hsize
      obtain rfl | rfl : i = 0 ∨ i = 1 := by omega
      · exact shows_param rfl (by decide)
      · exact shows_param rfl (by decide)
    · cases hnext with
      | part hpart =>
        obtain ⟨i,_,rfl⟩ := List.mem_map.mp hpart
        exact leaf rfl rfl rfl
      | pattern hpattern hsize =>
        cases hpattern
        cases packPattern_count.symm.trans hsize
  · cases hpart

theorem commas_separate_items_packs :
    (packCount insideEmptyPacks (.templateParam 0) = some 2 ∧
      ∃ t, packExpansion .standard (Halves.levels .standard 4) insideEmptyPacks (.templateParam 0)
          (.blank .standard) = .ok () t ∧
        ∃ texts, ItemTexts true
          (elementPrinter .standard 4 insideEmptyPacks (.templateParam 0)) false ""
            (List.range 2) texts ∧
          t.output.text = "" ++ ", ".intercalate texts) ∧
    ∃ symbol, Symbol.parse "_Z1fIJicEEvDpT_" .standard = .ok symbol ∧
      symbol.tree.Throughout CleanNames ∧
      (∀ spot, Visited .standard ({},symbol.tree) spot → ShowsElements .standard spot) ∧
      ∃ text, demangle "_Z1fIJicEEvDpT_" .standard = .ok text ∧ Separated text.toList := by
  obtain ⟨hitems,hseparated⟩ := commas_separate_items .standard
  refine ⟨?_,?_⟩
  · obtain ⟨t,hrun,_⟩ := textOf_eq emptyPacks_expansion
    exact ⟨emptyPacks_count,t,hrun,(hitems 4 insideEmptyPacks _ t (.blank .standard)).2 _ _
      emptyPacks_count hrun⟩
  · have hshape : ((Symbol.parse "_Z1fIJicEEvDpT_" .standard).toOption.bind fun symbol =>
        packName? symbol.tree) = some "f" := by decide +kernel
    have hresult :
        (demangle "_Z1fIJicEEvDpT_" .standard).toOption = some "void f<int, char>(int, char)" := by
      decide +kernel
    cases hparse : Symbol.parse "_Z1fIJicEEvDpT_" .standard with
    | error fault =>
      rw [hparse] at hshape
      cases hshape
    | ok symbol =>
      rw [hparse] at hshape
      obtain ⟨cv,ref,htree⟩ := packName?_eq hshape
      have hclosed : ∀ c ∈ "f".toList.getLast?, c ∉ ['(','<','[','\x7b'] := by
        intro c hc
        cases hc
        decide
      have hclean : CleanName "f" := ⟨by decide,by decide,hclosed⟩
      have hnames := htree ▸ packTree_names hclean cv ref
      have hshows := htree ▸ packTree_shows "f" cv ref
      cases htext : demangle "_Z1fIJicEEvDpT_" .standard with
      | error fault =>
        rw [htext] at hresult
        cases hresult
      | ok text =>
        exact ⟨_,rfl,hnames,hshows,text,rfl,hseparated _ _ _ hparse hnames hshows htext⟩

theorem emptyPacks_element (index : Nat) (h : index < 2) :
    Asks (elementPrinter .standard 4 insideEmptyPacks (.templateParam 0) index) := by
  have hresolve : resolve { insideEmptyPacks with packIndex := some index } 0 =
      .ok (.templateArgPack [],[]) := by
    match index, h with
    | 0, _ => rfl
    | 1, _ => rfl
  have hleft :
    Asks ((Halves.levels .standard 4).left { insideEmptyPacks with packIndex := some index }
      (.templateParam 0)) := by
    refine (step_asks .standard).then fun _ => ?_
    simp only [leftHalf,templateParam_resolved hresolve]
    exact (step_asks .standard).then fun _ => .pure ()
  have hright :
    Asks ((Halves.levels .standard 4).right { insideEmptyPacks with packIndex := some index }
      (.templateParam 0)) := by
    refine (step_asks .standard).then fun _ => ?_
    simp only [rightHalf,templateParam_resolved hresolve]
    exact (step_asks .standard).then fun _ => .pure ()
  exact hleft.then fun _ => hright

/-- An expanded pack keeps the commas of elements that show nothing. -/
theorem empty_elements_keep_their_commas :
    (demangle "_Z1fIJJEJEEEvDpT_").toOption = some "void f<>(, )" ∧
    ¬∀ (config : Config) (n : Nat) (place : Place) (pattern : Node) (size : Nat) (s t : Sheet),
      s.Sound → packCount place pattern = some size →
      packExpansion config (Halves.levels config n) place pattern s = .ok () t →
      ∃ texts, ItemTexts false (elementPrinter config n place pattern) false s.output.text
          (List.range size) texts ∧
        t.output.text = s.output.text ++ ", ".intercalate (texts.filter (· ≠ "")) := by
  refine ⟨by decide +kernel,fun h => ?_⟩
  obtain ⟨t,hrun,htext⟩ := textOf_eq emptyPacks_expansion
  obtain ⟨texts,hitems,hread⟩ := h _ _ _ _ _ _ _ (.blank .standard) emptyPacks_count hrun
  have hempty := hitems.all fun index hindex _ _ htext =>
    htext.empty (emptyPacks_element index (by simpa using hindex))
  have hnone : texts.filter (· ≠ "") = [] := by simpa using hempty
  rw [htext,hnone] at hread
  have hchars := congrArg (fun text => text.toList.head?) hread
  simp [Sheet.blank,Output.text] at hchars

end Printing

end MangledNames
