import MangledNames.Proofs.Grammar.AdvancingTypes
import MangledNames.Proofs.Grammar.Trial
set_option autoImplicit false

/-!
Names and unresolved names move on, if the productions below them do. What a trial read is given
back, so the levels that it used up are free again.
-/

namespace MangledNames.Grammar

open Cursor

section
variable {levels : Nat}

theorem abiTags_advances (name : Node) : Advances levels 0 (abiTags name) := by
  unfold abiTags
  refine (itemsUntil_advances ((lookedAt_advances "B").first fun _ => done_advances _)
    ((letter_advances "B" _ (by decide)).first fun _ => identifier_advances.rest)).first
      fun tags => ?_
  exact .ite (fun _ => done_advances _) fun _ => build_advances _

theorem structuredBindingName_advances : Advances levels 1 structuredBindingName := by
  unfold structuredBindingName
  exact (letter_advances "DC" _ (by decide)).first fun _ => properName_advances.rest.first fun _ =>
    (itemsToE_advances properName_advances).first fun _ => build_advances _

/-- A name that is the next component, whatever its kind, pays for itself. -/
theorem unscopedName_advances {r : Rules} (h : Advances levels 1 r.unqualifiedName) :
    Advances levels 1 (unscopedName r) := by
  unfold unscopedName
  exact (consumed_advances "St").andThen fun inStd => (consumed_advances "L").andThen fun _ =>
    h.first fun named => done_advances _

end

section
variable {levels : Nat} {r : Rules} (hr : r.Advance fun _ => levels)
include hr

theorem unnamedTypeName_advances : Advances (levels + 4) 1 (unnamedTypeName r) := by
  have numbered : ∀ (production : String) (node : Nat → Node), Advances levels 0 (do
      build (node (← numberSuffix production)) : Parser Node) :=
    fun _ _ => (scanning_advances (numberSuffix_runs _).rest).first fun _ => build_advances _
  unfold unnamedTypeName
  refine here_advances.andThen fun start => (letter_advances "U" _ (by decide)).pays fun _ =>
    (consumed_advances "t").first fun _ => .ite (fun _ => numbered _ .unnamedTypeName) fun _ => ?_
  refine (consumed_advances "l").first fun _ => .ite (fun _ => ?_) fun _ => ?_
  · refine (lookedAt_advances "T").first fun _ => (peeked_advances _ 1).first fun _ => .ite
      (fun _ => here_advances.first fun _ => (fail_advances rfl).failing) fun _ => ?_
    exact (consumed_advances "vE").first fun _ => .ite (fun _ => numbered _ (.closureTypeName _))
      fun _ => (itemsToE_advances hr.type).first fun _ => numbered _ (.closureTypeName _)
  · exact (lookedAt_advances "b").first fun _ => .ite (fun _ => fail_advances rfl) fun _ =>
      unexpected_advances _

theorem operatorName_advances : Advances (levels + 4) 1 (operatorName r) := by
  unfold operatorName
  refine here_advances.andThen fun start => (code_advances _).pays fun code => ?_
  split
  · exact (allowingTemplateArgs_advances false hr.type.rest).first fun _ => done_advances _
  · exact properName_advances.rest.first fun _ => done_advances _
  · refine .ite (fun _ => ?_) fun _ => ?_
    · exact properName_advances.rest.first fun _ => (build_advances _).first fun _ =>
        done_advances _
    · split
      · exact done_advances _
      · exact fail_advances rfl

theorem ctorDtorName_advances (scope : Node) : Advances (levels + 4) 1 (ctorDtorName r scope) := by
  have named : ∀ (kind : CtorDtorKind) (base : Option Node), Advances levels 0 (do
      return {
        node := ← build (.ctorDtorName kind scope.className base)
        traits := { ctorDtorConversion := true } } : Parser Named) :=
    fun _ _ => (build_advances _).first fun _ => done_advances _
  unfold ctorDtorName
  refine here_advances.andThen fun start => (consumed_advances "CI").andThen fun inheriting => ?_
  cases inheriting with
  | true =>
    refine ((scanning_advances (next_runs _)).map (f := Prod.mk 'C')).pays fun code => ?_
    dsimp only
    split
    · exact fail_advances rfl
    · exact hr.type.rest.map.first fun _ => named _ _
  | false =>
    refine (code_advances _).pays fun code => ?_
    dsimp only
    split
    · exact fail_advances rfl
    · exact (done_advances none).first fun _ => named _ _

theorem unqualifiedName_advances : Advances (levels + 4) 1 (unqualifiedName r) := by
  have tagged : ∀ named : Named, Advances (levels + 4) 0 (do
      return { named with node := ← abiTags named.node } : Parser Named) :=
    fun _ => (abiTags_advances _).first fun _ => done_advances _
  have plain : ∀ node : Node, Advances (levels + 4) 0 (do
      let named : Named ← pure { node := node }
      return { named with node := ← abiTags named.node } : Parser Named) :=
    fun _ => (done_advances _).first tagged
  unfold unqualifiedName
  refine (peeked_advances isDigit 0).andThen fun _ => (lookedAt_advances "U").andThen fun _ =>
    (lookedAt_advances "DC").andThen fun _ => (peeked_advances isLower 0).andThen fun _ => ?_
  refine .ite (fun _ => ?_) fun _ => .ite (fun _ => ?_) fun _ => .ite (fun _ => ?_) fun _ => .ite
    (fun _ => ?_) fun _ => ?_
  · exact sourceName_advances.first plain
  · exact (unnamedTypeName_advances hr).first plain
  · exact structuredBindingName_advances.first plain
  · exact (operatorName_advances hr).first tagged
  · exact (unexpected_advances _).failing

theorem nestedComponent_advances (scope : Option Node) (traits : NameTraits) :
    Advances levels 1 (nestedComponent r scope traits) := by
  unfold nestedComponent
  extract_lets traits unqualified ctorDtor
  have hunqualified : Advances levels 1 unqualified :=
    hr.unqualifiedName.first fun _ => done_advances _
  have hctorDtor : ∀ scope : Node, Advances levels 1 (ctorDtor scope) := fun scope =>
    ((ctorDtorName_advances hr scope).lower (by omega)).first fun _ =>
      (abiTags_advances _).first fun _ => done_advances _
  refine (scanning_advances (peek_runs 0)).andThen fun c => ?_
  split
  · cases scope with
    | none => exact unexpected_advances _
    | some scope => exact hr.templateArgs.first fun _ => done_advances _
  · exact templateParam_advances.first fun _ => done_advances _
  · cases scope with
    | none => exact hunqualified
    | some scope => exact hctorDtor scope
  · refine (peeked_advances _ 1).andThen fun _ => .ite (fun _ => ?_) fun _ => ?_
    · exact ((decltype_advances hr).lower (by omega)).first fun _ => done_advances _
    · cases scope with
      | none => exact hunqualified
      | some scope =>
        exact (lookedAt_advances "DC").andThen fun _ => .ite (fun _ => hunqualified)
          fun _ => hctorDtor scope
  · exact hunqualified

/-- Also a step that builds no component reads a character. -/
theorem nestedRound_advances (state : Option Node × NameTraits) :
    Advances levels 1 (nestedRound r state) := by
  obtain ⟨scope,traits⟩ := state
  unfold nestedRound
  refine here_advances.andThen fun start =>
    consumed_within_advances (Nat.le_add_right levels 4) (by decide) ?_ ?_
  · cases scope with
    | none => exact fail_advances rfl
    | some node => exact done_advances _
  refine (consumed_advances "L").andThen fun _ => here_advances.andThen fun start =>
    consumed_within_advances (Nat.le_add_right levels 4) (by decide) ?_
      ((lookedAt_advances "S").andThen fun _ => .ite (fun _ => ?_) fun _ => ?_)
  · exact .guard (fail_advances rfl) (done_advances _)
  · exact .guard (unexpected_advances _) (substitution_advances.first fun _ => done_advances _)
  · refine (nestedComponent_advances hr scope traits).first fun named =>
      (lookedAt_advances "E").first fun atEnd => .ite (fun _ => done_advances _) fun _ => ?_
    exact (remember_advances _).first fun _ => done_advances _

theorem nestedName_advances : Advances (levels + 4) 1 (nestedName r) := by
  unfold nestedName
  refine (letter_advances "N" _ (by decide)).pays fun _ =>
    (scanning_advances cvQualifiers_runs).first fun cv =>
      (scanning_advances refQualifier_runs).first fun ref => (consumed_advances "St").first
        fun inStd => repeatRound_advances fun state => ?_
  refine (nestedRound_advances hr state).imp (fun d round hd => ?_) (Nat.le_refl _)
  cases round with
  | again => exact hd
  | done => trivial

theorem localName_advances : Advances (levels + 4) 1 (localName r) := by
  unfold localName
  refine (letter_advances "Z" _ (by decide)).pays fun _ => (peeked_advances _ 0).first fun _ =>
    .guard (unexpected_advances _) (hr.encoding.rest.first fun encoding => ?_)
  split
  · rename_i function
    have entity : Advances levels 0 (do
        let entity ← r.name
        return { entity with node := .localName function entity.node } : Parser Named) :=
      hr.name.rest.first fun _ => done_advances _
    refine (literal_advances "E" _).first fun _ => (consumed_advances "s").first fun _ => .ite
      (fun _ => ?_) fun _ => ?_
    · exact (scanning_advances discriminator_runs).first fun _ => done_advances _
    refine (consumed_advances "d").first fun _ => .ite (fun _ => ?_) fun _ => ?_
    · refine (consumed_advances "_").first fun _ => .ite (fun _ => entity) fun _ => ?_
      exact (digits_advances _).first fun _ => (literal_advances "_" _).first fun _ => entity
    · exact hr.name.rest.first fun _ => (scanning_advances discriminator_runs).first fun _ =>
        done_advances _
  · exact .throw (.of_broken (by decide))

theorem substitutedName_advances : Advances (levels + 4) 1 (substitutedName r) := by
  unfold substitutedName
  refine substitution_advances.pays fun name => (lookedAt_advances "I").first fun _ => .ite
    (fun _ => ?_) fun _ => ?_
  · exact hr.templateArgs.rest.first fun _ => done_advances _
  · split
    · exact done_advances _
    · exact unexpected_advances _

theorem simpleId_advances : Advances (levels + 4) 1 (simpleId r) := by
  unfold simpleId
  exact sourceName_advances.pays fun name => withTemplateArgs_advances hr name

theorem unresolvedType_advances : Advances (levels + 4) 1 (unresolvedType r) := by
  unfold unresolvedType
  refine (scanning_advances (peek_runs 0)).andThen fun c => ?_
  split
  · exact remembered_advances templateParam_advances
  · exact remembered_advances (decltype_advances hr)
  · exact substitution_advances
  · exact unexpected_advances _

theorem baseUnresolvedName_advances : Advances (levels + 4) 1 (baseUnresolvedName r) := by
  unfold baseUnresolvedName
  refine (peeked_advances _ 0).andThen fun _ => .ite (fun _ => simpleId_advances hr) fun _ =>
    consumed_else_advances (by decide) ?_ (consumed_else_advances (by decide) ?_
      (unexpected_advances _))
  · exact ((operatorName_advances hr).imp (fun _ _ _ => Nat.zero_le _)
        (by omega)).first fun named =>
      withTemplateArgs_advances hr named.node
  · refine (peeked_advances _ 0).first fun _ => .ite (fun _ => ?_) fun _ => ?_
    · exact ((simpleId_advances hr).rest.first fun _ => done_advances _).lower (by omega)
    · exact ((unresolvedType_advances hr).rest.first fun _ => done_advances _).lower (by omega)

theorem qualifiedTo_advances (qualifier : Node) :
    Advances (levels + 4) 1 (qualifiedTo r qualifier) := by
  unfold qualifiedTo
  exact (itemsToE_advances (simpleId_advances hr)).andThen fun _ =>
    (baseUnresolvedName_advances hr).first fun _ => done_advances _

theorem terminatedLevels_advances : Advances (levels + 4) 1 (terminatedLevels r) := by
  unfold terminatedLevels
  exact (simpleId_advances hr).rest.andThen fun qualifier => qualifiedTo_advances hr qualifier

theorem singleLevel_advances : Advances (levels + 4) 1 (singleLevel r) := by
  unfold singleLevel
  exact (simpleId_advances hr).first fun _ => (baseUnresolvedName_advances hr).rest.first fun _ =>
    done_advances _

/-- A trial that is given up starts over where it began. -/
theorem qualifierLevels_advances : Advances (levels + 4) 1 (qualifierLevels r) := by
  refine ⟨fun context _ => ?_⟩
  cases hs : context.speculative with
  | true =>
    rw [qualifierLevels_on_trial hs]
    exact (terminatedLevels_advances hr).ends context trivial
  | false =>
    rw [qualifierLevels_off_trial hs]
    refine ((trial_advances (terminatedLevels_advances hr)).ends context hs).bind ?_
    rintro (_ | name) t ⟨hct,hname⟩
    · change Ends _ _ ((abandon context.cursor.position context.substitutions.size >>=
        fun _ => singleLevel r) t)
      rw [bind_apply,abandon_apply hct]
      exact (singleLevel_advances hr).ends context trivial
    · exact ⟨hct,hname rfl⟩

theorem qualifierType_advances : Advances (levels + 4) 1 (qualifierType r) := by
  unfold qualifierType
  exact (unresolvedType_advances hr).pays fun name => withTemplateArgs_advances hr name

theorem scopedName_advances : Advances (levels + 4) 1 (scopedName r) := by
  unfold scopedName
  refine consumed_else_advances (by decide) ?_ (consumed_else_advances (by decide) ?_
    (baseUnresolvedName_advances hr))
  · exact ((qualifierType_advances hr).rest.first fun qualifier =>
      (qualifiedTo_advances hr qualifier).rest).lower (by omega)
  · refine ((peeked_advances _ 0).first fun _ => .ite
      (fun _ => (qualifierLevels_advances hr).rest) fun _ => ?_).lower (Nat.le_add_right levels 4)
    exact (qualifierType_advances hr).rest.first fun _ =>
      (baseUnresolvedName_advances hr).rest.first fun _ => done_advances _

theorem unresolvedName_advances (globalScope : Bool) :
    Advances (levels + 4) 1 (unresolvedName r globalScope) := by
  unfold unresolvedName
  exact (scopedName_advances hr).first fun _ => done_advances _

end

section
variable {levels : Nat} {r : Rules} (hr : r.Advance (levels - ·))
include hr

theorem name_advances : Advances (levels + 1 - 1) 1 (name r) := by
  unfold name
  refine (lookedAt_advances "N").andThen fun _ => .ite (fun _ => hr.nestedName) fun _ => ?_
  refine (lookedAt_advances "Z").andThen fun _ => .ite (fun _ => hr.localName) fun _ => ?_
  refine (lookedAt_advances "S").andThen fun _ => (lookedAt_advances "St").andThen fun _ => .ite
    (fun _ => .of_paid (substitutedName_advances hr.paid)) fun _ => ?_
  refine (unscopedName_advances hr.unqualifiedName).first fun named =>
    (lookedAt_advances "I").first fun _ => .ite (fun _ => ?_) fun _ => done_advances _
  exact (remember_advances _).first fun _ => hr.templateArgs.rest.first fun _ => done_advances _

end

end MangledNames.Grammar
