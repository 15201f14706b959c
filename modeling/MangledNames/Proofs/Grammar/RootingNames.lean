import MangledNames.Proofs.Grammar.RootingTypes
import MangledNames.Proofs.Grammar.Trial
set_option autoImplicit false

/-!
Names and unresolved names keep the table closed, if the productions below them do: what a name is
in is `std`, abbreviated or an entry.
-/

namespace MangledNames

theorem Substitutions.restore_ok {before after restored : Substitutions}
    (hle : before.toList <+: after.toList) (h : after.restore before.size = .ok restored) :
    restored = before := by
  obtain ⟨added,hadded⟩ := hle
  rw [Substitutions.restore_eq hadded.symm] at h
  cases h
  rfl

namespace Grammar

open Cursor Node

theorem abandon_ends (before context : Context) (hle : before.entries <+: context.entries)
    (cursorCheckpoint : Nat) :
    Ends (fun _ after => after.substitutions = before.substitutions)
      (fun _ after => before.entries <+: after.entries)
      (abandon cursorCheckpoint before.substitutions.size context) := by
  have restored : Ends (fun _ after => before.entries <+: after.entries)
      (fun _ after => before.entries <+: after.entries)
      ((liftM (restore cursorCheckpoint) : Parser Unit) context) := by
    change Ends _ _ (scanning (restore cursorCheckpoint) context)
    unfold scanning
    cases restore cursorCheckpoint context.cursor <;> exact hle
  unfold abandon
  refine Ends.bind restored fun _ after h => ?_
  rw [bind_apply,get_apply]
  dsimp only
  cases hrestored : after.substitutions.restore before.substitutions.size with
  | ok substitutions => exact Substitutions.restore_ok h hrestored
  | error fault => exact h

theorem join_rooted {scope : Option Node} {name : Node} {earlier : List Node}
    (hscope : ∀ node ∈ scope, node.KnownScope earlier) (h : name.Rooted []) :
    (join scope name).Rooted earlier := by
  cases scope with
  | none => exact h.mono List.nil_prefix
  | some scope => exact .nestedName (hscope scope rfl) name

theorem expandAbbreviation_known {scope : Node} {earlier : List Node}
    (h : scope.KnownScope earlier) :
    (expandAbbreviation scope).KnownScope earlier := by
  unfold expandAbbreviation
  split
  · exact .inr (.inl ⟨_,true,rfl⟩)
  · exact h

theorem abiTags_closes {name : Node} (h : name.Rooted []) :
    Closes (abiTags name) fun _ node => node.Rooted [] := by
  unfold abiTags
  refine (Closes.itemsUntil (.scan fun _ => .pure _) (.scan fun _ => .reading)).bind fun tags =>
    .ite (fun _ => .value h) fun _ => .build (.simple nofun rfl rfl)

theorem structuredBindingName_closes :
    Closes structuredBindingName fun _ node => node.Rooted [] := by
  unfold structuredBindingName
  exact .scan fun _ => properName_closes.bind fun _ => (Closes.itemsToE properName_closes).bind
    fun _ => .build (.simple nofun rfl rfl)

section
variable {r : Rules} (hr : r.Root)
include hr

theorem unnamedTypeName_closes : Closes (unnamedTypeName r) fun _ node => node.Rooted [] := by
  have closure : ∀ parameters : List Node, Closes (do
      build (.closureTypeName parameters (← numberSuffix "closure number")) : Parser Node)
      fun _ node => node.Rooted [] :=
    fun _ => .scan fun _ => .build (.simple nofun rfl rfl)
  unfold unnamedTypeName
  refine .here fun start => .scan fun _ => .scan fun _ =>
    .ite (fun _ => .scan fun _ => .build (.simple nofun rfl rfl)) fun _ =>
    .scan fun _ => .ite (fun _ => .scan fun _ => .scan fun _ =>
      .ite (fun _ => .here fun _ => (Closes.fail _).failing) fun _ => ?_) fun _ =>
    .scan fun _ => .ite (fun _ => .fail _) fun _ => .unexpected _
  exact .scan fun _ => .ite (fun _ => closure []) fun _ => (Closes.itemsToE hr.type).bind closure

theorem operatorName_closes : Closes (operatorName r) fun _ named => named.node.Rooted [] := by
  unfold operatorName
  refine .here fun start => .scan fun code => ?_
  split
  · exact (Closes.allowingTemplateArgs false hr.type).bind fun _ => .value (.simple nofun rfl rfl)
  · exact properName_closes.bind fun _ => .value (.simple nofun rfl rfl)
  · refine .ite (fun _ => properName_closes.bind fun name => ?_) fun _ => ?_
    · have hname : (Node.vendorOperatorName (digitValue code.2) name).Rooted [] :=
        .simple nofun rfl rfl
      exact (Closes.build hname).andThen fun _ h => .value h
    · split
      · exact .value (.simple nofun rfl rfl)
      · exact .fail _

theorem ctorDtorKind_closes (scope : Node) (start : Cursor) (inheriting : Bool) (code : Code) :
    Closes (match CtorDtorKind.ofCode? code with
      | none => fail (.unexpectedToken "constructor or destructor" start.position (Code.text code))
      | some kind => do
        let base ← if inheriting then some <$> r.type else pure none
        return {
          node := ← build (.ctorDtorName kind scope.className base)
          traits := { ctorDtorConversion := true } } : Parser Named) fun _ named =>
            named.node.Rooted [] := by
  have named : ∀ (kind : CtorDtorKind) (base : Option Node), Closes (do
      return {
        node := ← build (.ctorDtorName kind scope.className base)
        traits := { ctorDtorConversion := true } } : Parser Named) fun _ named =>
          named.node.Rooted [] := by
    intro kind base
    have hname : (Node.ctorDtorName kind scope.className base).Rooted [] := .simple nofun rfl rfl
    exact (Closes.build hname).andThen fun _ h => .value h
  split
  · exact .fail _
  · cases inheriting with
    | true => exact hr.type.map.bind (named _)
    | false => exact (Closes.pure _).bind (named _)

theorem ctorDtorName_closes (scope : Node) :
    Closes (ctorDtorName r scope) fun _ named => named.node.Rooted [] := by
  unfold ctorDtorName
  refine .here fun start => .scan fun inheriting => ?_
  cases inheriting with
  | true => exact Closes.reading.map.bind fun code => ctorDtorKind_closes hr scope start true code
  | false => exact .scan fun code => ctorDtorKind_closes hr scope start false code

theorem unqualifiedName_closes :
    Closes (unqualifiedName r) fun _ named => named.node.Rooted [] := by
  have tagged : ∀ named : Named, named.node.Rooted [] → Closes (do
      return { named with node := ← abiTags named.node } : Parser Named) fun _ named =>
        named.node.Rooted [] :=
    fun named h => (abiTags_closes h).andThen fun _ h => .value h
  have untraited : ∀ node : Node, node.Rooted [] → Closes (do
      let named : Named ← pure { node := node }
      return { named with node := ← abiTags named.node } : Parser Named) fun _ named =>
        named.node.Rooted [] :=
    fun node h => (Closes.value (v := fun named : Named => named.node.Rooted []) h).andThen tagged
  unfold unqualifiedName
  exact .scan fun _ => .scan fun _ => .scan fun _ => .scan fun _ =>
    .ite (fun _ => sourceName_closes.andThen untraited) fun _ =>
    .ite (fun _ => (unnamedTypeName_closes hr).andThen untraited) fun _ =>
    .ite (fun _ => structuredBindingName_closes.andThen untraited) fun _ =>
    .ite (fun _ => (operatorName_closes hr).andThen tagged) fun _ =>
    (Closes.unexpected _).failing

theorem unscopedName_closes :
    Closes (unscopedName r) fun context named => named.node.Rooted context.entries := by
  unfold unscopedName
  refine .scan fun inStd => .scan fun _ => hr.unqualifiedName.andThen fun named h =>
    ⟨fun context => ?_⟩
  cases inStd with
  | true => exact .pure (.nestedName (.inl rfl) named.node)
  | false => exact .pure (h.mono List.nil_prefix)

theorem nestedComponent_closes {context : Context} {scope : Option Node}
    (hscope : ∀ node ∈ scope, node.KnownScope context.entries) (traits : NameTraits) :
    ClosesFrom context (nestedComponent r scope traits)
      fun after named => named.node.Rooted after.entries := by
  unfold nestedComponent
  extract_lets traits unqualified ctorDtor
  have hunqualified : ∀ context : Context, (∀ node ∈ scope, node.KnownScope context.entries) →
      ClosesFrom context unqualified fun after named => named.node.Rooted after.entries :=
    fun context hscope => (hr.unqualifiedName.starting context).bind fun _ after hle h =>
      .pure (join_rooted (fun node hnode => (hscope node hnode).mono hle) h)
  have hctorDtor : ∀ (context : Context) (scope : Node), scope.KnownScope context.entries →
      ClosesFrom context (ctorDtor scope) fun after named => named.node.Rooted after.entries :=
    fun context scope hscope =>
        ((ctorDtorName_closes hr scope).starting context).bind fun _ after hle h =>
      ((abiTags_closes h).starting after).bind fun _ last hle' _ =>
        .pure (.nestedName (expandAbbreviation_known ((hscope.mono hle).mono hle')) _)
  refine .scan fun next cursor _ => ?_
  split
  · cases scope with
    | none => exact .unexpected _
    | some scope =>
      exact (hr.templateArgs.starting _).bind fun arguments after hle _ =>
        .pure (.templateName ((hscope scope rfl).mono hle) arguments)
  · exact (templateParam_closes.starting _).bind fun _ after hle h =>
      .pure (join_rooted (fun node hnode => (hscope node hnode).mono hle) h)
  · cases scope with
    | none => exact hunqualified _ nofun
    | some scope => exact hctorDtor _ scope (hscope scope rfl)
  · refine .scan fun _ _ _ => .ite (fun _ => ?_) fun _ => ?_
    · exact ((decltype_closes hr).starting _).bind fun _ after hle h =>
        .pure (join_rooted (fun node hnode => (hscope node hnode).mono hle) h)
    · cases scope with
      | none => exact hunqualified _ nofun
      | some scope =>
        exact .scan fun _ _ _ => .ite (fun _ => hunqualified _ hscope)
          fun _ => hctorDtor _ scope (hscope scope rfl)
  · exact hunqualified _ hscope

/-- The name up to here is a scope that is known, or else the name ends here. -/
def ScopeInTable (context : Context) (state : Option Node × NameTraits) : Prop :=
  ∀ node ∈ state.1, node.KnownScope context.entries ∨
    node.Rooted context.entries ∧ "E".toList.isPrefixOf context.cursor.rest = true

theorem nestedRound_closes {context : Context} {state : Option Node × NameTraits}
    (hstate : ScopeInTable context state) :
    ClosesFrom context (nestedRound r state) fun after =>
      Round.Keeps (ScopeInTable after) fun named => named.node.Rooted after.entries := by
  obtain ⟨scope,traits⟩ := state
  unfold nestedRound
  refine .closed fun hclosed =>
    .here (.scan fun ended cursor hended => .ite (fun _ => ?_) fun hmore => ?_)
  · cases scope with
    | none => exact .fail _
    | some node =>
      exact .pure ((hstate node rfl).elim (fun h => hclosed.rooted_of_known h) fun h => h.1)
  have hscope : ∀ node ∈ scope, node.KnownScope context.entries := by
    refine fun node hnode => (hstate node hnode).resolve_right fun h => hmore ?_
    exact consume_of_prefix h.2 hended
  have onward :
    ∀ {node : Node} {traits : NameTraits} {after : Context}, node.KnownScope after.entries →
      ClosesFrom after
          (pure (.again (some node,traits)) : Parser (Round (Option Node × NameTraits) Named))
        fun last => Round.Keeps (ScopeInTable last) fun named => named.node.Rooted last.entries :=
    fun h => .pure (by rintro _ ⟨⟩; exact .inl h)
  refine .scan fun _ _ _ => .here (.scan fun _ _ _ => .ite (fun _ => ?_) fun _ => .scan fun _ _ _ =>
    .ite (fun _ => .guard (.unexpected _) ?_) fun _ => ?_)
  · exact .guard (.fail _) (.pure fun node hnode => .inl (hscope node hnode))
  · exact (substitution_closes.starting _).bind fun _ _ _ h => onward (.inr h)
  · refine .bind (nestedComponent_closes hr ?_ traits) fun named after _ h =>
      .scan fun atEnd cursor hlook => ?_
    · exact hscope
    refine .ite (fun hE => ?_) fun _ => ?_
    · obtain ⟨rfl,rfl⟩ := lookingAt_ok hlook
      refine .pure ?_
      rintro _ ⟨⟩
      exact .inr ⟨h,hE⟩
    · exact .remember h fun last _ hmem => onward (.inr (.inr hmem))

theorem nestedName_closes :
    Closes (nestedName r) fun context named => named.node.Rooted context.entries := by
  unfold nestedName
  refine .scan fun _ => .scan fun cv => .scan fun ref => .scan fun inStd =>
    ⟨fun context => .repeatRound (fun context state hstate => nestedRound_closes hr hstate) ?_⟩
  cases inStd with
  | true =>
    rintro _ ⟨⟩
    exact .inl (.inl rfl)
  | false => exact nofun

theorem localName_closes :
    Closes (localName r) fun context named => named.node.Rooted context.entries := by
  have entity : ∀ function : Encoding Node, Closes (do
      let entity ← r.name
      return { entity with node := .localName function entity.node } : Parser Named)
      fun context named => named.node.Rooted context.entries :=
    fun _ => hr.name.bind fun _ => ⟨fun _ => .pure (.simple nofun rfl rfl)⟩
  unfold localName
  refine .scan fun _ => .scan fun _ => .ite (fun _ => (Closes.unexpected _).failing) fun _ =>
    hr.encoding.bind fun encoding => ?_
  split
  · refine .scan fun _ => .scan fun _ =>
      .ite (fun _ => .scan fun _ => ⟨fun _ => .pure (.simple nofun rfl rfl)⟩) fun _ =>
      .scan fun _ => .ite (fun _ => .scan fun _ => .ite (fun _ => entity _) fun _ => ?_) fun _ => ?_
    · exact .scan fun _ => .scan fun _ => entity _
    · exact hr.name.bind fun _ => .scan fun _ => ⟨fun _ => .pure (.simple nofun rfl rfl)⟩
  · exact .throw _

theorem substitutedName_closes :
    Closes (substitutedName r) fun context named => named.node.Rooted context.entries := by
  unfold substitutedName
  refine ⟨fun context => (substitution_closes.starting context).bind fun name after _ h =>
    .scan fun _ _ _ => .ite (fun _ => ?_) fun _ => ?_⟩
  · exact (hr.templateArgs.starting _).bind fun arguments last hle _ =>
      .pure ((Rooted.templateName (.inr h) arguments).mono hle)
  · split
    · exact .pure (.simple nofun rfl rfl)
    · exact .unexpected _

theorem name_closes : Closes (name r) fun context named => named.node.Rooted context.entries := by
  unfold name
  refine .scan fun _ => .ite (fun _ => hr.nestedName) fun _ =>
    .scan fun _ => .ite (fun _ => hr.localName) fun _ =>
    .scan fun _ => .scan fun _ => .ite (fun _ => substitutedName_closes hr) fun _ =>
      ⟨fun context => ?_⟩
  refine ((unscopedName_closes hr).starting context).bind fun named after _ h => .scan fun _ _ _ =>
    .ite (fun _ => .remember h fun remembered _ hmem => ?_) fun _ => .pure h
  exact (hr.templateArgs.starting remembered).bind fun arguments last hle _ =>
    .pure (.templateName (.inr (.inr (hle.subset hmem))) arguments)

theorem simpleId_closes : Closing (simpleId r) := by
  unfold simpleId
  exact sourceName_closes.bind fun name => withTemplateArgs_closes hr name

theorem unresolvedType_closes : Closing (unresolvedType r) := by
  unfold unresolvedType
  refine .scan fun next => ?_
  split
  · exact (Closes.remembered templateParam_closes).forget
  · exact (Closes.remembered (decltype_closes hr)).forget
  · exact substitution_closes.forget
  · exact .unexpected _

theorem baseUnresolvedName_closes : Closing (baseUnresolvedName r) := by
  unfold baseUnresolvedName
  exact .scan fun _ => .ite (fun _ => simpleId_closes hr) fun _ =>
    .scan fun _ =>
      .ite (fun _ => (operatorName_closes hr).bind fun _ => withTemplateArgs_closes hr _) fun _ =>
    .scan fun _ => .ite (fun _ => .scan fun _ =>
      .ite (fun _ => (simpleId_closes hr).bind fun _ => .pure _)
        fun _ => (unresolvedType_closes hr).bind fun _ => .pure _) fun _ => .unexpected _

theorem qualifiedTo_closes (qualifier : Node) : Closing (qualifiedTo r qualifier) := by
  unfold qualifiedTo
  exact (Closes.itemsToE (simpleId_closes hr)).bind fun _ =>
    (baseUnresolvedName_closes hr).bind fun _ => .pure _

theorem terminatedLevels_closes : Closing (terminatedLevels r) := by
  unfold terminatedLevels
  exact (simpleId_closes hr).bind fun qualifier => qualifiedTo_closes hr qualifier

theorem singleLevel_closes : Closing (singleLevel r) := by
  unfold singleLevel
  exact (simpleId_closes hr).bind fun _ => (baseUnresolvedName_closes hr).bind fun _ => .pure _

/-- What a trial that is given up added is dropped, and nothing else. -/
theorem triedLevels_closes (context : Context) :
    ClosesFrom context (triedLevels r context) fun _ _ => True := by
  refine ⟨fun hc => ?_⟩
  have hm := ((terminatedLevels_closes hr).starting { context with speculative := true }).ends hc
  unfold triedLevels
  rw [bind_apply]
  cases hresult : terminatedLevels r { context with speculative := true } with
  | ok name after =>
    rw [hresult] at hm
    rw [trial_of_ok hresult]
    exact ⟨hm.1,hm.2.1,trivial⟩
  | error fault after =>
    rw [hresult] at hm
    by_cases he : fault.IsMalformed
    · obtain ⟨e,rfl,he⟩ := he
      rw [trial_of_malformed he hresult]
      refine Ends.bind (abandon_ends context { after with speculative := false } hm _)
        fun _ last hlast => ?_
      have hentries : last.entries = context.entries := congrArg Substitutions.toList hlast
      have hsingle := ((singleLevel_closes hr).starting last).ends (hentries ▸ hc)
      rwa [hentries] at hsingle
    · rw [trial_of_fault he hresult]
      exact hm

theorem qualifierLevels_closes : Closing (qualifierLevels r) := by
  refine ⟨fun context => ⟨fun hc => ?_⟩⟩
  cases htrial : context.speculative with
  | true =>
    rw [qualifierLevels_on_trial htrial]
    exact ((terminatedLevels_closes hr).starting context).ends hc
  | false =>
    rw [qualifierLevels_off_trial htrial]
    exact (triedLevels_closes hr context).ends hc

theorem scopedName_closes : Closing (scopedName r) := by
  have qualifier : Closing (qualifierType r) :=
    (unresolvedType_closes hr).bind fun type => withTemplateArgs_closes hr type
  unfold scopedName
  exact .scan fun _ => .ite (fun _ => qualifier.bind fun _ => qualifiedTo_closes hr _) fun _ =>
    .scan fun _ => .ite (fun _ => .scan fun _ => .ite (fun _ => qualifierLevels_closes hr) fun _ =>
      qualifier.bind fun _ => (baseUnresolvedName_closes hr).bind fun _ => .pure _) fun _ =>
      baseUnresolvedName_closes hr

theorem unresolvedName_closes (globalScope : Bool) : Closing (unresolvedName r globalScope) := by
  unfold unresolvedName
  exact (scopedName_closes hr).bind fun _ => .pure _

end

end Grammar

end MangledNames
