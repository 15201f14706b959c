import MangledNames.Proofs.Grammar.LockstepTypes
import MangledNames.Proofs.Grammar.Trial
set_option autoImplicit false

/-!
Names and unresolved names are read alike by two runs over one text, if the productions below them
are.
-/

namespace MangledNames.Grammar

open Cursor

section
variable {g : Gap}

theorem abiTags_alike (name : Node) : g.lockstep.Alike (abiTags name) (abiTags name) := by
  unfold abiTags
  refine (itemsUntil_alike ((lookedAt_alike "B").bind fun _ => .pure rfl)
    ((expected_alike "B" _).bind fun _ => scanning_alike identifier_alike)).bind fun tags => ?_
  exact .ite (fun _ => .pure rfl) fun _ => build_alike _

theorem structuredBindingName_alike :
    g.lockstep.Alike structuredBindingName structuredBindingName := by
  unfold structuredBindingName
  exact (expected_alike "DC" _).bind fun _ => properName_alike.bind fun _ =>
    (itemsToE_alike properName_alike).bind fun _ => build_alike _

end

section
variable {g : Gap} {r r' : Rules} (h : r.Alike g r')
include h

theorem unnamedTypeName_alike : g.lockstep.Alike (unnamedTypeName r) (unnamedTypeName r') := by
  unfold unnamedTypeName
  refine here_alike.bind ?_
  rintro c d rfl
  have closure : ∀ parameters : List Node, g.lockstep.Alike
      (do build (.closureTypeName parameters (← numberSuffix "closure number")))
      (do build (.closureTypeName parameters (← numberSuffix "closure number"))) :=
    fun _ => (scanning_alike (numberSuffix_alike _)).bind fun _ => build_alike _
  have parameters : g.lockstep.Alike (do
      let parameters ← if ← consume "vE" then pure [] else itemsToE r.type
      build (.closureTypeName parameters (← numberSuffix "closure number"))) (do
      let parameters ← if ← consume "vE" then pure [] else itemsToE r'.type
      build (.closureTypeName parameters (← numberSuffix "closure number"))) :=
    (consumed_alike "vE").bind fun _ => .ite (fun _ => closure []) fun _ =>
      (itemsToE_alike h.type).bind closure
  refine (expected_alike "U" _).bind fun _ => (consumed_alike "t").bind fun _ => .ite (fun _ => ?_)
    fun _ => (consumed_alike "l").bind fun _ => .ite (fun _ => ?_) fun _ =>
      (lookedAt_alike "b").bind fun _ => .ite (fun _ => extension_alike c _) fun _ =>
        unexpected_alike _
  · exact (scanning_alike (numberSuffix_alike _)).bind fun _ => build_alike _
  · refine (lookedAt_alike "T").bind fun _ => (peekedIs_alike _ 1).bind fun _ => .ite (fun _ => ?_)
      fun _ => parameters
    refine here_alike.bind ?_
    rintro c d rfl
    exact Simulation.Alike.bind (extension_alike c _) fun _ => parameters

theorem operatorName_alike : g.lockstep.Alike (operatorName r) (operatorName r') := by
  unfold operatorName
  refine here_alike.bind ?_
  rintro c d rfl
  refine (code_alike _).bind fun code => ?_
  split
  · exact (allowingTemplateArgs_alike false h.type).bind fun _ => .pure rfl
  · exact properName_alike.bind fun _ => .pure rfl
  · refine .ite (fun _ => ?_) fun _ => ?_
    · exact properName_alike.bind fun _ => (build_alike _).bind fun _ => .pure rfl
    · split
      · exact .pure rfl
      · exact token_alike c _ _

theorem ctorDtorName_alike (scope : Node) :
    g.lockstep.Alike (ctorDtorName r scope) (ctorDtorName r' scope) := by
  unfold ctorDtorName
  refine here_alike.bind ?_
  rintro c d rfl
  refine (consumed_alike "CI").bind fun inheriting => ?_
  cases inheriting with
  | true =>
    refine (scanning_alike (next_alike _)).map.bind fun code => ?_
    dsimp only
    split
    · exact token_alike c _ _
    · exact h.type.map.bind fun _ => (build_alike _).bind fun _ => .pure rfl
  | false =>
    refine (code_alike _).bind fun code => ?_
    dsimp only
    split
    · exact token_alike c _ _
    · exact Simulation.Alike.bind (.pure rfl) fun _ => (build_alike _).bind fun _ => .pure rfl

theorem unqualifiedName_alike : g.lockstep.Alike (unqualifiedName r) (unqualifiedName r') := by
  have tagged : ∀ named : Named, g.lockstep.Alike
      (do return { named with node := ← abiTags named.node } : Parser Named)
      (do return { named with node := ← abiTags named.node } : Parser Named) :=
    fun named => (abiTags_alike named.node).bind fun _ => .pure rfl
  unfold unqualifiedName
  refine (peekedIs_alike isDigit 0).bind fun _ => (lookedAt_alike "U").bind fun _ =>
    (lookedAt_alike "DC").bind fun _ => (peekedIs_alike isLower 0).bind fun _ => .ite (fun _ => ?_)
      fun _ => .ite (fun _ => ?_) fun _ => .ite (fun _ => ?_) fun _ =>
        .ite (fun _ => ?_) fun _ => ?_
  · exact sourceName_alike.bind fun _ => Simulation.Alike.bind (.pure rfl) tagged
  · exact (unnamedTypeName_alike h).bind fun _ => Simulation.Alike.bind (.pure rfl) tagged
  · exact structuredBindingName_alike.bind fun _ => Simulation.Alike.bind (.pure rfl) tagged
  · exact (operatorName_alike h).bind tagged
  · exact (unexpected_alike _).bind tagged

theorem unscopedName_alike : g.lockstep.Alike (unscopedName r) (unscopedName r') := by
  unfold unscopedName
  exact (consumed_alike "St").bind fun _ => (consumed_alike "L").bind fun _ =>
    h.unqualifiedName.bind fun _ => .pure rfl

theorem nestedComponent_alike (scope : Option Node) (traits : NameTraits) :
    g.lockstep.Alike (nestedComponent r scope traits) (nestedComponent r' scope traits) := by
  have unqualified : ∀ finish : Named → Named, g.lockstep.Alike
      (do return finish (← r.unqualifiedName)) (do return finish (← r'.unqualifiedName)) :=
    fun _ => h.unqualifiedName.bind fun _ => .pure rfl
  have ctorDtor : ∀ (scope : Node) (finish : Node → Named), g.lockstep.Alike
      (do return finish (← abiTags (← ctorDtorName r scope).node))
      (do return finish (← abiTags (← ctorDtorName r' scope).node)) := fun scope _ =>
    (ctorDtorName_alike h scope).bind fun named =>
      (abiTags_alike named.node).bind fun _ => .pure rfl
  unfold nestedComponent
  refine (peeked_alike 0).bind fun c => ?_
  split
  · cases scope with
    | none => exact unexpected_alike _
    | some scope => exact h.templateArgs.bind fun _ => .pure rfl
  · exact templateParam_alike.bind fun _ => .pure rfl
  · cases scope with
    | none => exact unqualified _
    | some scope => exact ctorDtor scope _
  · refine (peekedIs_alike _ 1).bind fun _ => .ite (fun _ => ?_) fun _ => ?_
    · exact (decltype_alike h).bind fun _ => .pure rfl
    · cases scope with
      | none => exact unqualified _
      | some scope =>
        exact (lookedAt_alike "DC").bind fun _ => .ite (fun _ => unqualified _) fun _ =>
          ctorDtor scope _
  · exact unqualified _

theorem nestedRound_alike (state : Option Node × NameTraits) :
    g.lockstep.Alike (nestedRound r state) (nestedRound r' state) := by
  obtain ⟨scope,traits⟩ := state
  unfold nestedRound
  refine here_alike.bind ?_
  rintro c d rfl
  refine (consumed_alike "E").bind fun _ => .ite (fun _ => ?_) fun _ =>
    (consumed_alike "L").bind fun _ => here_alike.bind ?_
  · cases scope with
    | none => exact token_alike c _ _
    | some node => exact .pure rfl
  rintro c d rfl
  refine (consumed_alike "M").bind fun _ => .ite (fun _ => ?_) fun _ =>
    (lookedAt_alike "S").bind fun _ => .ite (fun _ => ?_) fun _ => ?_
  · exact .guard (token_alike c _ _) (.pure rfl)
  · exact .guard (unexpected_alike _) (substitution_alike.bind fun _ => .pure rfl)
  · exact (nestedComponent_alike h scope traits).bind fun named => (lookedAt_alike "E").bind
      fun _ => .guardNot (remember_alike named.node) (.pure rfl)

theorem nestedName_alike : g.lockstep.Alike (nestedName r) (nestedName r') := by
  unfold nestedName
  exact (expected_alike "N" _).bind fun _ => (scanning_alike cvQualifiers_alike).bind fun cv =>
    (scanning_alike refQualifier_alike).bind fun ref => (consumed_alike "St").bind fun inStd =>
      repeatRound_alike (nestedRound_alike h) _

theorem localName_alike : g.lockstep.Alike (localName r) (localName r') := by
  unfold localName
  refine (expected_alike "Z" _).bind fun _ => (peekedIs_alike _ 0).bind fun _ =>
    .guard (unexpected_alike _) (h.encoding.bind fun function => ?_)
  split
  · have named : ∀ function : Encoding Node, g.lockstep.Alike (do
        let entity ← r.name
        return { entity with node := .localName function entity.node } : Parser Named) (do
        let entity ← r'.name
        return { entity with node := .localName function entity.node } : Parser Named) :=
      fun function => h.name.bind fun _ => .pure rfl
    refine (expected_alike "E" _).bind fun _ => (consumed_alike "s").bind fun _ =>
      .ite (fun _ => ?_)
      fun _ => (consumed_alike "d").bind fun _ => .ite (fun _ => ?_) fun _ => ?_
    · exact (scanning_alike discriminator_alike).bind fun _ => .pure rfl
    · exact (consumed_alike "_").bind fun _ => .ite (fun _ => named _) fun _ =>
        (scanning_alike (digits_alike _)).bind fun _ => (expected_alike "_" _).bind fun _ => named _
    · exact h.name.bind fun _ => (scanning_alike discriminator_alike).bind fun _ => .pure rfl
  · exact broken_alike _

theorem substitutedName_alike : g.lockstep.Alike (substitutedName r) (substitutedName r') := by
  unfold substitutedName
  refine substitution_alike.bind fun name => (lookedAt_alike "I").bind fun _ => .ite (fun _ => ?_)
    fun _ => ?_
  · exact h.templateArgs.bind fun _ => .pure rfl
  · split
    · exact .pure rfl
    · exact unexpected_alike _

theorem name_alike : g.lockstep.Alike (name r) (name r') := by
  unfold name
  refine (lookedAt_alike "N").bind fun _ => .ite (fun _ => h.nestedName) fun _ =>
    (lookedAt_alike "Z").bind fun _ => .ite (fun _ => h.localName) fun _ =>
      (lookedAt_alike "S").bind fun _ => (lookedAt_alike "St").bind fun _ => .ite
        (fun _ => substitutedName_alike h) fun _ => ?_
  exact (unscopedName_alike h).bind fun named => (lookedAt_alike "I").bind fun _ => .ite
    (fun _ => (remember_alike named.node).bind fun _ => h.templateArgs.bind fun _ => .pure rfl)
    fun _ => .pure rfl

theorem simpleId_alike : g.lockstep.Alike (simpleId r) (simpleId r') := by
  unfold simpleId
  exact sourceName_alike.bind fun name => withTemplateArgs_alike h name

theorem unresolvedType_alike : g.lockstep.Alike (unresolvedType r) (unresolvedType r') := by
  unfold unresolvedType
  refine (peeked_alike 0).bind fun c => ?_
  split
  · exact remembered_alike templateParam_alike
  · exact remembered_alike (decltype_alike h)
  · exact substitution_alike
  · exact unexpected_alike _

theorem baseUnresolvedName_alike :
    g.lockstep.Alike (baseUnresolvedName r) (baseUnresolvedName r') := by
  unfold baseUnresolvedName
  refine (peekedIs_alike _ 0).bind fun _ => .ite (fun _ => simpleId_alike h) fun _ =>
    (consumed_alike "on").bind fun _ => .ite (fun _ => ?_) fun _ =>
      (consumed_alike "dn").bind fun _ => .ite (fun _ => ?_) fun _ => unexpected_alike _
  · exact (operatorName_alike h).bind fun named => withTemplateArgs_alike h named.node
  · exact (peekedIs_alike _ 0).bind fun _ =>
      .ite (fun _ => (simpleId_alike h).bind fun _ => .pure rfl)
      fun _ => (unresolvedType_alike h).bind fun _ => .pure rfl

theorem qualifiedTo_alike (qualifier : Node) :
    g.lockstep.Alike (qualifiedTo r qualifier) (qualifiedTo r' qualifier) := by
  unfold qualifiedTo
  exact (itemsToE_alike (simpleId_alike h)).bind fun _ => (baseUnresolvedName_alike h).bind
    fun _ => .pure rfl

theorem terminatedLevels_alike : g.lockstep.Alike (terminatedLevels r) (terminatedLevels r') := by
  unfold terminatedLevels
  exact (simpleId_alike h).bind fun qualifier => qualifiedTo_alike h qualifier

theorem singleLevel_alike : g.lockstep.Alike (singleLevel r) (singleLevel r') := by
  unfold singleLevel
  exact (simpleId_alike h).bind fun _ => (baseUnresolvedName_alike h).bind fun _ => .pure rfl

/-- Both runs give the trial up, or neither. -/
theorem triedLevels_alike (hg : g.onTrial = false) {c d : Context} (hcd : g.Same c d) :
    g.lockstep.Alike (triedLevels r c) (triedLevels r' d) := by
  unfold triedLevels
  refine (trial_alike hg (terminatedLevels_alike h)).bind fun found => ?_
  cases found with
  | some name => exact .pure rfl
  | none =>
    rw [hcd.cursor,behind_position,hcd.substitutions]
    exact (abandon_alike c.cursor.position _).bind fun _ => singleLevel_alike h

/-- Both runs attempt the levels, or neither does because a trial is going on. -/
theorem levelsTrying_alike {attempt attempt' : Rules → Parser Node}
    (hattempt : g.onTrial = false → g.lockstep.Alike (attempt r) (attempt' r')) :
    g.lockstep.Alike (levelsTrying attempt r) (levelsTrying attempt' r') := by
  unfold levelsTrying
  refine get_alike.bind fun c d hcd => ?_
  rw [hcd.speculative]
  refine .ite (fun _ => terminatedLevels_alike h) fun hspeculative => hattempt ?_
  cases hg : g.onTrial with
  | false => rfl
  | true => exact absurd (hcd.onTrial hg) hspeculative

theorem qualifierLevels_alike : g.lockstep.Alike (qualifierLevels r) (qualifierLevels r') := by
  rw [← levelsTrying_triedLevels,← levelsTrying_triedLevels]
  exact levelsTrying_alike h fun hg => get_alike.bind fun _ _ => triedLevels_alike h hg

theorem qualifierType_alike : g.lockstep.Alike (qualifierType r) (qualifierType r') := by
  unfold qualifierType
  exact (unresolvedType_alike h).bind fun name => withTemplateArgs_alike h name

theorem scopedNameOver_alike {levels levels' : Parser Node}
    (hlevels : g.lockstep.Alike levels levels') :
    g.lockstep.Alike (scopedNameOver levels r) (scopedNameOver levels' r') := by
  unfold scopedNameOver
  refine (consumed_alike "srN").bind fun _ => .ite (fun _ => ?_) fun _ =>
    (consumed_alike "sr").bind fun _ => .ite (fun _ => ?_) fun _ => baseUnresolvedName_alike h
  · exact (qualifierType_alike h).bind fun qualifier => qualifiedTo_alike h qualifier
  · exact (peekedIs_alike _ 0).bind fun _ => .ite (fun _ => hlevels) fun _ =>
      (qualifierType_alike h).bind fun _ => (baseUnresolvedName_alike h).bind fun _ => .pure rfl

theorem scopedName_alike : g.lockstep.Alike (scopedName r) (scopedName r') :=
  scopedNameOver_alike h (qualifierLevels_alike h)

theorem unresolvedName_alike (globalScope : Bool) :
    g.lockstep.Alike (unresolvedName r globalScope) (unresolvedName r' globalScope) := by
  unfold unresolvedName
  exact (scopedName_alike h).bind fun _ => .pure rfl

end

end MangledNames.Grammar
