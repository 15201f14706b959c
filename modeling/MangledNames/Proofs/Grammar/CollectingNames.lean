import MangledNames.Proofs.Grammar.CollectingTypes
import MangledNames.Grammar.Production
set_option autoImplicit false

/-!
Names and unresolved names collect nodes whose digits and marks have no brackets, if the productions
below them do.
-/

namespace MangledNames.Grammar

open Cursor Node Printing

theorem join_plain {scope : Option Node} {name : Node} (hscope : ∀ node ∈ scope, node.Plain)
    (h : name.Plain) :
    (join scope name).Plain := by
  cases scope with
  | none => exact h
  | some scope => exact (hscope scope rfl).nestedName h

theorem expandAbbreviation_plain {scope : Node} (h : scope.Plain) :
    (expandAbbreviation scope).Plain := by
  unfold expandAbbreviation
  split
  · exact .of_children trivial nofun
  · exact h

theorem abiTags_collects {name : Node} (h : name.Plain) : Collects (abiTags name) Node.Plain := by
  unfold abiTags
  refine (Collects.itemsUntil (p := fun _ => True) (.scan fun _ => .pure trivial)
    (.scan fun _ => .ofScan fun _ _ _ _ => trivial)).bind fun tags _ =>
      .ite (fun _ => .pure h) fun _ => ?_
  exact .build (.single trivial rfl h)

theorem structuredBindingName_collects : Collects structuredBindingName Node.Plain := by
  unfold structuredBindingName
  refine .scan fun _ => properName_collects.bind fun first _ =>
    (Collects.itemsToE properName_collects).bind
    fun others _ => .build (.of_children trivial ?_)
  simpa [children,fields] using ⟨Plain.sourceName first,fun name _ => Plain.sourceName name⟩

section
variable {r : Rules} (hr : r.Collect)
include hr

theorem unnamedTypeName_collects : Collects (unnamedTypeName r) Node.Plain := by
  have closure : ∀ parameters : List Node, (∀ node ∈ parameters, node.Plain) → Collects (do
      build (.closureTypeName parameters (← numberSuffix "closure number")) :
        Parser Node) Node.Plain :=
    fun parameters h => .scan fun _ =>
      .build (.of_children trivial (by simpa [children,fields] using h))
  unfold unnamedTypeName
  refine .here fun start => .scan fun _ => .scan fun _ => .ite (fun _ => .scan fun _ => ?_) fun _ =>
    .scan fun _ => .ite (fun _ => ?_) fun _ => .scan fun _ =>
      .ite (fun _ => .fail _) fun _ => .unexpected _
  · exact .build (.of_children trivial (List.forall_mem_nil _))
  · refine .scan fun _ => .scan fun _ => .ite (fun _ => .here fun _ => (Collects.fail _).failing)
      fun _ => ?_
    exact .scan fun _ => .ite (fun _ => closure [] (List.forall_mem_nil _)) fun _ =>
      (Collects.itemsToE hr.type).bind closure

theorem operatorName_collects : Collects (operatorName r) fun named => named.node.Plain := by
  unfold operatorName
  refine .here fun start => .scan fun code => ?_
  split
  · exact (Collects.allowingTemplateArgs false hr.type).bind fun _ h =>
      .pure (.single trivial rfl h)
  · exact properName_collects.bind fun name _ => .pure (.single trivial rfl (.sourceName name))
  · refine .ite (fun _ => properName_collects.bind fun name _ => ?_) fun _ => ?_
    · have hname : (Node.vendorOperatorName (digitValue code.2) name).Plain :=
        .single trivial rfl (.sourceName name)
      exact (Collects.build hname).bind fun _ h => .pure h
    · split
      · exact .pure (.of_children trivial nofun)
      · exact .fail _

theorem ctorDtorKind_collects {scope : Node} (hscope : scope.Plain) (start : Cursor)
    (inheriting : Bool) (code : Code) :
    Collects (match CtorDtorKind.ofCode? code with
      | none => fail (.unexpectedToken "constructor or destructor" start.position (Code.text code))
      | some kind => do
        let base ← if inheriting then some <$> r.type else pure none
        return {
          node := ← build (.ctorDtorName kind scope.className base)
          traits := { ctorDtorConversion := true } } : Parser Named) fun named =>
            named.node.Plain := by
  have named :
      ∀ (kind : CtorDtorKind) (base : Option Node), (∀ node ∈ base, node.Plain) → Collects (do
      return {
        node := ← build (.ctorDtorName kind scope.className base)
        traits := { ctorDtorConversion := true } } : Parser Named) fun named =>
          named.node.Plain := by
    intro kind base hbase
    have hname : (Node.ctorDtorName kind scope.className base).Plain :=
      .of_children trivial (by simpa [children,fields] using ⟨hscope.className,hbase⟩)
    exact (Collects.build hname).bind fun _ h => .pure h
  split
  · exact .fail _
  · cases inheriting with
    | true =>
      exact (hr.type.map (f := some) (g := fun base => ∀ node ∈ base, node.Plain)
        fun _ h => by rintro _ ⟨⟩; exact h).bind (named _)
    | false =>
      exact (Collects.pure (p := fun base => ∀ node ∈ base, node.Plain) (by simp)).bind (named _)

theorem ctorDtorName_collects {scope : Node} (hscope : scope.Plain) :
    Collects (ctorDtorName r scope) fun named => named.node.Plain := by
  unfold ctorDtorName
  refine .here fun start => .scan fun inheriting => ?_
  cases inheriting with
  | true =>
    exact ((Collects.ofScan (p := fun _ => True) fun _ _ _ _ => trivial).map (f := Prod.mk 'C')
      (g := fun _ => True) fun _ _ => trivial).bind fun code _ =>
        ctorDtorKind_collects hr hscope start true code
  | false => exact .scan fun code => ctorDtorKind_collects hr hscope start false code

theorem unqualifiedName_collects : Collects (unqualifiedName r) fun named => named.node.Plain := by
  have tagged : ∀ named : Named, named.node.Plain → Collects (do
      return { named with node := ← abiTags named.node } : Parser Named) fun named =>
        named.node.Plain :=
    fun named h => (abiTags_collects h).bind fun _ h => .pure h
  have untraited : ∀ node : Node, node.Plain → Collects (do
      let named : Named ← pure { node := node }
      return { named with node := ← abiTags named.node } : Parser Named) fun named =>
        named.node.Plain :=
    fun node h => (Collects.pure (p := fun named : Named => named.node.Plain) h).bind tagged
  unfold unqualifiedName
  refine .scan fun _ => .scan fun _ => .scan fun _ => .scan fun _ => .ite (fun _ => ?_) fun _ =>
    .ite (fun _ => ?_) fun _ => .ite (fun _ => ?_) fun _ => .ite (fun _ => ?_) fun _ =>
      (Collects.unexpected _).failing
  · exact sourceName_collects.bind untraited
  · exact (unnamedTypeName_collects hr).bind untraited
  · exact structuredBindingName_collects.bind untraited
  · exact (operatorName_collects hr).bind tagged

theorem unscopedName_collects : Collects (unscopedName r) fun named => named.node.Plain := by
  unfold unscopedName
  refine .scan fun inStd => .scan fun _ => hr.unqualifiedName.bind fun named h => ?_
  cases inStd with
  | true => exact .pure ((Plain.sourceName "std").nestedName h)
  | false => exact .pure h

theorem nestedComponent_collects {scope : Option Node} (hscope : ∀ node ∈ scope, node.Plain)
    (traits : NameTraits) : Collects (nestedComponent r scope traits) fun named =>
    named.node.Plain := by
  unfold nestedComponent
  extract_lets traits unqualified ctorDtor
  have hunqualified : Collects unqualified fun named => named.node.Plain :=
    hr.unqualifiedName.bind fun _ h => .pure (join_plain hscope h)
  have hctorDtor : ∀ scope : Node, scope.Plain → Collects (ctorDtor scope) fun named =>
      named.node.Plain :=
    fun scope h => (ctorDtorName_collects hr h).bind fun _ hnamed => (abiTags_collects hnamed).bind
      fun _ hnode => .pure ((expandAbbreviation_plain h).nestedName hnode)
  refine .scan fun c => ?_
  split
  · cases scope with
    | none => exact .unexpected _
    | some scope => exact hr.templateArgs.bind fun _ h => .pure ((hscope scope rfl).templateName h)
  · exact templateParam_collects.bind fun _ h => .pure (join_plain hscope h)
  · cases scope with
    | none => exact hunqualified
    | some scope => exact hctorDtor scope (hscope scope rfl)
  · refine .scan fun _ => .ite (fun _ => ?_) fun _ => ?_
    · exact (decltype_collects hr).bind fun _ h => .pure (join_plain hscope h)
    · cases scope with
      | none => exact hunqualified
      | some scope =>
        exact .scan fun _ => .ite (fun _ => hunqualified) fun _ =>
          hctorDtor scope (hscope scope rfl)
  · exact hunqualified

theorem nestedRound_collects (state : Option Node × NameTraits)
    (hstate : ∀ node ∈ state.1, node.Plain) :
    Collects (nestedRound r state)
      (Round.Keeps (fun state => ∀ node ∈ state.1, node.Plain) fun named => named.node.Plain) := by
  obtain ⟨scope,traits⟩ := state
  have onward : ∀ {node : Node} {traits : NameTraits}, node.Plain →
      Collects (pure (.again (some node,traits)) : Parser (Round (Option Node × NameTraits) Named))
        (Round.Keeps (fun state => ∀ node ∈ state.1, node.Plain) fun named => named.node.Plain) :=
    fun h => .pure (by rintro _ ⟨⟩; exact h)
  unfold nestedRound
  refine .here fun start => .scan fun _ => .ite (fun _ => ?_) fun _ => .scan fun _ =>
      .here fun start =>
    .scan fun _ => .ite (fun _ => .guard (.fail _) (.pure hstate)) fun _ => .scan fun _ =>
      .ite (fun _ => .guard (.unexpected _) ?_) fun _ => ?_
  · cases scope with
    | none => exact .fail _
    | some node => exact .pure (hstate node rfl)
  · exact substitution_collects.bind fun _ h => onward h
  · exact (nestedComponent_collects hr hstate traits).bind fun _ h => .scan fun _ =>
      .ite (fun _ => onward h) fun _ => .remember h (onward h)

theorem nestedName_collects : Collects (nestedName r) fun named => named.node.Plain := by
  unfold nestedName
  refine .scan fun _ => .scan fun cv => .scan fun ref => .scan fun inStd =>
    .repeatRound ?_ (nestedRound_collects hr)
  cases inStd with
  | true =>
    rintro _ ⟨⟩
    exact .sourceName _
  | false => exact nofun

theorem localName_collects : Collects (localName r) fun named => named.node.Plain := by
  unfold localName
  refine .scan fun _ => .scan fun _ => .ite (fun _ => (Collects.unexpected _).failing) fun _ =>
    hr.encoding.bind fun encoding hencoding => ?_
  split
  · rename_i function
    have around : ∀ {entity : Node}, entity.Plain → (Node.localName function entity).Plain :=
      .pair trivial rfl hencoding
    have entity : Collects (do
        let entity ← r.name
        return { entity with node := .localName function entity.node } : Parser Named)
        fun named => named.node.Plain := hr.name.bind fun _ h => .pure (around h)
    refine .scan fun _ => .scan fun _ => .ite (fun _ => .scan fun _ => .pure (around ?_)) fun _ =>
      .scan fun _ => .ite (fun _ => .scan fun _ => .ite (fun _ => entity) fun _ => ?_) fun _ => ?_
    · exact .of_children trivial nofun
    · exact .scan fun _ => .scan fun _ => entity
    · exact hr.name.bind fun _ h => .scan fun _ => .pure (around h)
  · exact .throw _

theorem substitutedName_collects : Collects (substitutedName r) fun named => named.node.Plain := by
  unfold substitutedName
  refine substitution_collects.bind fun name h => .scan fun _ => .ite (fun _ => ?_) fun _ => ?_
  · exact hr.templateArgs.bind fun _ harguments => .pure (h.templateName harguments)
  · split
    · exact .pure h
    · exact .unexpected _

theorem name_collects : Collects (name r) fun named => named.node.Plain := by
  unfold name
  refine .scan fun _ => .ite (fun _ => hr.nestedName) fun _ =>
    .scan fun _ => .ite (fun _ => hr.localName) fun _ =>
    .scan fun _ => .scan fun _ => .ite (fun _ => substitutedName_collects hr) fun _ => ?_
  refine (unscopedName_collects hr).bind fun named h => .scan fun _ =>
    .ite (fun _ => .remember h ?_) fun _ => .pure h
  exact hr.templateArgs.bind fun _ harguments => .pure (h.templateName harguments)

theorem simpleId_collects : Collects (simpleId r) Node.Plain := by
  unfold simpleId
  exact sourceName_collects.bind fun _ h => withTemplateArgs_collects hr h

theorem unresolvedType_collects : Collects (unresolvedType r) Node.Plain := by
  unfold unresolvedType
  refine .scan fun c => ?_
  split
  · exact .remembered templateParam_collects
  · exact .remembered (decltype_collects hr)
  · exact substitution_collects
  · exact .unexpected _

theorem baseUnresolvedName_collects : Collects (baseUnresolvedName r) Node.Plain := by
  unfold baseUnresolvedName
  refine .scan fun _ => .ite (fun _ => simpleId_collects hr) fun _ =>
    .scan fun _ => .ite (fun _ => ?_) fun _ =>
    .scan fun _ => .ite (fun _ => .scan fun _ => .ite (fun _ => ?_) fun _ => ?_)
      fun _ => .unexpected _
  · exact (operatorName_collects hr).bind fun _ h => withTemplateArgs_collects hr h
  · exact (simpleId_collects hr).bind fun _ h => .pure (.single trivial rfl h)
  · exact (unresolvedType_collects hr).bind fun _ h => .pure (.single trivial rfl h)

theorem qualifiedTo_collects {qualifier : Node} (h : qualifier.Plain) :
    Collects (qualifiedTo r qualifier) Node.Plain := by
  have joined : ∀ {levels : List Node} {qualifier : Node}, qualifier.Plain →
    (∀ node ∈ levels, node.Plain) →
      (levels.foldl .nestedName qualifier).Plain := by
    intro levels
    induction levels with
    | nil => exact fun h _ => h
    | cons level levels ih =>
      intro qualifier h hlevels
      rw [List.forall_mem_cons] at hlevels
      exact ih (h.nestedName hlevels.1) hlevels.2
  unfold qualifiedTo
  exact (Collects.itemsToE (simpleId_collects hr)).bind fun levels hlevels =>
    (baseUnresolvedName_collects hr).bind
    fun _ hname => .pure ((joined h hlevels).nestedName hname)

theorem terminatedLevels_collects : Collects (terminatedLevels r) Node.Plain := by
  unfold terminatedLevels
  exact (simpleId_collects hr).bind fun _ h => qualifiedTo_collects hr h

theorem qualifiedBase_collects {qualifier : Node} (h : qualifier.Plain) :
    Collects (do return .nestedName qualifier (← baseUnresolvedName r) : Parser Node) Node.Plain :=
  (baseUnresolvedName_collects hr).bind fun _ hname => .pure (h.nestedName hname)

theorem qualifierLevels_collects : Collects (qualifierLevels r) Node.Plain := by
  unfold qualifierLevels
  refine .get fun context _ => .ite (fun _ => terminatedLevels_collects hr) fun _ => .scan fun _ =>
    .get fun _ _ => (Collects.trial (terminatedLevels_collects hr)).bind fun found hfound => ?_
  split
  · exact .pure (hfound _ rfl)
  · exact (Collects.abandon _ _).bind fun _ _ => (simpleId_collects hr).bind fun _ h =>
      qualifiedBase_collects hr h

theorem scopedName_collects : Collects (scopedName r) Node.Plain := by
  have qualifier : Collects (qualifierType r) Node.Plain :=
    (unresolvedType_collects hr).bind fun _ h => withTemplateArgs_collects hr h
  unfold scopedName
  refine .scan fun _ => .ite (fun _ => qualifier.bind fun _ h => qualifiedTo_collects hr h) fun _ =>
    .scan fun _ => .ite (fun _ => .scan fun _ =>
      .ite (fun _ => qualifierLevels_collects hr) fun _ => ?_) fun _ =>
      baseUnresolvedName_collects hr
  exact qualifier.bind fun _ h => qualifiedBase_collects hr h

theorem unresolvedName_collects (globalScope : Bool) :
    Collects (unresolvedName r globalScope) Node.Plain := by
  unfold unresolvedName
  exact (scopedName_collects hr).bind fun _ h => .pure (.single trivial rfl h)

end

end MangledNames.Grammar
