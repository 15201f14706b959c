import MangledNames.Proofs.Grammar.SoundTypes
set_option autoImplicit false

/-!
Names read on and give sound nodes, if the productions below them do. A local name stands in an
encoding, because no special name is let in.
-/

namespace MangledNames.Grammar

open Cursor

theorem CtorDtorKind.not_isDestructor {code : Code} (hcode : code.1 = 'C') {kind : CtorDtorKind}
    (h : CtorDtorKind.ofCode? code = some kind) : kind.isDestructor = false := by
  unfold CtorDtorKind.ofCode? at h
  split at h <;> cases h <;> first | rfl | cases hcode

theorem join_sound {scope : Option Node} {name : Node} (hscope : Node.OptionSound scope)
    (h : name.Sound) : (join scope name).Sound := by
  cases scope with
  | none => exact h
  | some scope => exact ⟨hscope,h⟩

theorem expandAbbreviation_sound {scope : Node} (h : scope.Sound) :
    (expandAbbreviation scope).Sound := by
  cases scope <;> exact h

theorem abiTags_runs {name : Node} (h : name.Sound) : Runs 0 (abiTags name) Node.Sound := by
  unfold abiTags
  have tag : Runs 1 (do
      expect "B" "ABI tag"
      identifier : Parser String) fun _ => True :=
    (letter_runs "B" _ (by decide)).first fun _ _ => (scanning_runs identifier_runs).rest.imp
      fun _ _ => trivial
  refine (itemsUntil_runs ((lookedAt_runs "B").first fun _ _ => Runs.pure trivial) tag).first
    fun tags _ => Runs.ite (fun _ => Runs.pure h) fun htags => ?_
  have htags : tags.isEmpty = false := by simpa using htags
  exact build_runs _ (by simp [Node.wellFormed,htags]) ⟨htags,h⟩

theorem structuredBindingName_runs : Runs 1 structuredBindingName Node.Sound := by
  unfold structuredBindingName
  refine (letter_runs "DC" _ (by decide)).first fun _ _ => properName_runs.rest.first
    fun first hfirst => (itemsToE_runs properName_runs).first fun others hothers => ?_
  exact build_runs _ rfl ⟨rfl,List.forall_mem_cons.mpr ⟨hfirst,hothers⟩⟩

section
variable {r : Rules} (hr : r.Sound)
include hr

theorem unnamedTypeName_runs : Runs 1 (unnamedTypeName r) Node.Sound := by
  have numbered : ∀ (production : String) (node : Nat → Node),
      (∀ number, 1 ≤ number → (node number).wellFormed = true ∧ (node number).Sound) →
      Runs 0 (do build (node (← numberSuffix production)) : Parser Node) Node.Sound :=
    fun _ _ h => (scanning_runs (numberSuffix_runs _)).rest.first fun number hnumber =>
      build_runs _ (h number hnumber).1 (h number hnumber).2
  unfold unnamedTypeName
  refine here_runs.andThen fun start _ => (letter_runs "U" _ (by decide)).first fun _ _ =>
    (consumed_runs "t").first fun _ _ => Runs.ite (fun _ => ?_) fun _ => ?_
  · exact numbered _ .unnamedTypeName fun _ h => ⟨by simpa [Node.wellFormed] using h,h⟩
  refine (consumed_runs "l").first fun _ _ => Runs.ite (fun _ => ?_) fun _ => ?_
  · have closure : ∀ parameters : List Node, (∀ node ∈ parameters, node.Sound) → Runs 0 (do
        build (.closureTypeName parameters (← numberSuffix "closure number")) : Parser Node)
        Node.Sound := fun parameters hparameters => numbered _ (.closureTypeName parameters)
      fun _ h => ⟨by simpa [Node.wellFormed] using h,h,Node.allSound_iff.mpr hparameters⟩
    refine (lookedAt_runs "T").first fun _ _ => (peeked_runs _ 1).first fun _ _ => Runs.ite
      (fun _ => ?_) fun _ => ?_
    · exact here_runs.first fun _ _ => (fail_runs (p := fun _ => False) _).failing
    · refine (consumed_runs "vE").first fun _ _ => Runs.ite (fun _ => ?_) fun _ => ?_
      · exact closure [] (by simp)
      · exact (itemsToE_runs hr.type).first closure
  · exact (lookedAt_runs "b").first fun _ _ => Runs.ite (fun _ => fail_runs _) fun _ =>
      unexpected_runs _

theorem operatorName_runs : Runs 1 (operatorName r) fun named => named.node.Sound := by
  unfold operatorName
  refine here_runs.andThen fun start _ => (code_runs _).first fun code _ => ?_
  split
  · exact (allowingTemplateArgs_runs false hr.type).rest.first fun _ h => Runs.pure h
  · exact properName_runs.rest.first fun _ h => Runs.pure h
  · refine Runs.ite (fun hdigit => ?_) fun _ => ?_
    · have harity : digitValue code.2 ≤ 9 := digitValue_le (by simp at hdigit; exact hdigit.2)
      exact properName_runs.rest.first fun name hname => (build_runs (.vendorOperatorName _ name)
        (by simpa [Node.wellFormed] using harity) ⟨harity,hname⟩).first fun _ h => Runs.pure h
    · split
      · exact Runs.pure trivial
      · exact fail_runs _

/-- Only a constructor can take over those of a base class. -/
theorem ctorDtorName_runs {scope : Node} (hscope : scope.Sound) :
    Runs 1 (ctorDtorName r scope) fun named => named.node.Sound := by
  have named : ∀ (kind : CtorDtorKind) (base : Option Node), Node.OptionSound base →
      (base.isNone || !kind.isDestructor) = true → Runs 0 (do
        return {
          node := ← build (.ctorDtorName kind scope.className base)
          traits := { ctorDtorConversion := true } } : Parser Named) fun named =>
            named.node.Sound :=
    fun kind base hbase hkind => (build_runs (.ctorDtorName kind scope.className base) hkind
      ⟨hkind,Node.className_sound hscope,hbase⟩).first fun _ h => Runs.pure h
  unfold ctorDtorName
  refine here_runs.andThen fun start _ => (consumed_runs "CI").andThen fun inheriting _ => ?_
  cases inheriting with
  | true =>
    refine ((scanning_runs (next_runs _)).map (f := Prod.mk 'C') (g := fun code => code.1 = 'C')
      fun _ _ => rfl).first fun code hcode => ?_
    dsimp only
    split
    · exact fail_runs _
    · rename_i kind hkind
      exact (hr.type.rest.map (f := some) (g := fun base => Node.OptionSound base)
        fun _ h => h).first fun base hbase => named kind base hbase (by
          simp [CtorDtorKind.not_isDestructor hcode hkind])
  | false =>
    refine (code_runs _).first fun code _ => ?_
    dsimp only
    split
    · exact fail_runs _
    · exact (Runs.pure (p := (· = none)) rfl).first fun base hbase => by
        subst hbase
        exact named _ none trivial rfl

theorem unqualifiedName_runs : Runs 1 (unqualifiedName r) fun named => named.node.Sound := by
  have tagged : ∀ named : Named, named.node.Sound → Runs 0 (do
      return { named with node := ← abiTags named.node } : Parser Named)
      fun named => named.node.Sound :=
    fun named h => (abiTags_runs h).first fun _ h => Runs.pure h
  have plain : ∀ node : Node, node.Sound → Runs 0 (do
      let named : Named ← pure { node := node }
      return { named with node := ← abiTags named.node } : Parser Named)
      fun named => named.node.Sound :=
    fun node h => (Runs.pure (p := (· = { node := node })) rfl).first fun named hnamed =>
      tagged named (hnamed ▸ h)
  unfold unqualifiedName
  refine (peeked_runs isDigit 0).andThen fun _ _ => (lookedAt_runs "U").andThen fun _ _ =>
    (lookedAt_runs "DC").andThen fun _ _ => (peeked_runs isLower 0).andThen fun _ _ => ?_
  refine Runs.ite (fun _ => ?_) fun _ => Runs.ite (fun _ => ?_) fun _ => Runs.ite (fun _ => ?_)
    fun _ => Runs.ite (fun _ => ?_) fun _ => ?_
  · exact sourceName_runs.first fun node h => plain node h
  · exact (unnamedTypeName_runs hr).first fun node h => plain node h
  · exact structuredBindingName_runs.first fun node h => plain node h
  · exact (operatorName_runs hr).first tagged
  · exact (unexpected_runs (p := fun _ => False) _).failing

theorem unscopedName_runs : Runs 1 (unscopedName r) fun named => named.node.Sound := by
  unfold unscopedName
  refine (consumed_runs "St").andThen fun inStd _ => (consumed_runs "L").andThen fun _ _ =>
    hr.unqualifiedName.first fun named h => ?_
  cases inStd with
  | true => exact Runs.pure ⟨rfl,h⟩
  | false => exact Runs.pure h

/-- What stands before a component is sound, or nothing does. -/
theorem nestedComponent_runs {scope : Option Node} (hscope : Node.OptionSound scope)
    (traits : NameTraits) :
    Runs 1 (nestedComponent r scope traits) fun named => named.node.Sound := by
  unfold nestedComponent
  extract_lets traits unqualified ctorDtor
  have hunqualified : Runs 1 unqualified fun named => named.node.Sound :=
    hr.unqualifiedName.first fun named h => Runs.pure (join_sound hscope h)
  have hctorDtor : ∀ scope : Node, scope.Sound → Runs 1 (ctorDtor scope) fun named =>
      named.node.Sound := fun scope h => (ctorDtorName_runs hr h).first fun named hnamed =>
    (abiTags_runs hnamed).first fun _ hnode => Runs.pure ⟨expandAbbreviation_sound h,hnode⟩
  refine (scanning_runs (peek_runs 0)).andThen fun c _ => ?_
  split
  · cases scope with
    | none => exact unexpected_runs _
    | some scope =>
      exact hr.templateArgs.first fun _ h => Runs.pure ⟨hscope,Node.allSound_iff.mpr h⟩
  · exact templateParam_runs.first fun _ h => Runs.pure (join_sound hscope h)
  · cases scope with
    | none => exact hunqualified
    | some scope => exact hctorDtor scope hscope
  · refine (peeked_runs _ 1).andThen fun _ _ => Runs.ite (fun _ => ?_) fun _ => ?_
    · exact (decltype_runs hr).first fun _ h => Runs.pure (join_sound hscope h)
    · cases scope with
      | none => exact hunqualified
      | some scope =>
        exact (lookedAt_runs "DC").andThen fun _ _ => Runs.ite (fun _ => hunqualified)
          fun _ => hctorDtor scope hscope
  · exact hunqualified

theorem nestedRound_runs (state : Option Node × NameTraits) (hstate : Node.OptionSound state.1) :
    Runs 1 (nestedRound r state)
      (RoundGood (fun state => Node.OptionSound state.1) (fun named => named.node.Sound) 1) := by
  obtain ⟨scope,traits⟩ := state
  have again : ∀ {scope : Option Node} {traits : NameTraits}, Node.OptionSound scope →
      Runs 0 (pure (.again (scope,traits)) : Parser (Round (Option Node × NameTraits) Named))
        (RoundGood (fun state => Node.OptionSound state.1) (fun named => named.node.Sound) 1) :=
    fun h => Runs.pure ⟨Nat.le_refl 1,h⟩
  unfold nestedRound
  refine here_runs.andThen fun start _ => consumed_else (by decide) ?_ ?_
  · cases scope with
    | none => exact fail_runs _
    | some node => exact Runs.pure hstate
  refine (consumed_runs "L").andThen fun _ _ => here_runs.andThen fun start _ =>
    consumed_else (by decide) ?_ ((lookedAt_runs "S").andThen fun _ _ => Runs.ite (fun _ => ?_)
      fun _ => ?_)
  · exact Runs.guard (fail_runs _) (again hstate)
  · exact Runs.guard (unexpected_runs _) (substitution_runs.first fun _ h => again h)
  · refine (nestedComponent_runs hr hstate traits).first fun named h => (lookedAt_runs "E").first
      fun atEnd _ => Runs.ite (fun _ => again h) fun _ => ?_
    exact (remember_runs h).first fun _ _ => again h

theorem nestedName_runs : Runs 1 (nestedName r) fun named => named.node.Sound := by
  unfold nestedName
  refine (letter_runs "N" _ (by decide)).first fun _ _ => (scanning_runs cvQualifiers_runs).first
    fun cv _ => (scanning_runs refQualifier_runs).first fun ref _ => (consumed_runs "St").first
      fun inStd _ => repeatRound_runs_of_one ?_ (nestedRound_runs hr)
  cases inStd with
  | true => exact rfl
  | false => exact trivial

/-- No special name is let in. -/
theorem localName_runs : Runs 1 (localName r) fun named => named.node.Sound := by
  unfold localName
  refine (letter_runs "Z" _ (by decide)).first fun _ _ => peekIs_runsAt fun next => ?_
  cases hnext : next.any fun c => c == 'T' || c == 'G' with
  | true => exact .of_runs (unexpected_runs (p := fun _ => False) _).failing
  | false =>
    refine (hr.function next hnext).rest.first ?_
    rintro _ ⟨function,rfl,hfunction⟩
    have entity : Runs 0 (do
        let entity ← r.name
        return { entity with node := .localName function entity.node } : Parser Named)
        fun named => named.node.Sound :=
      hr.name.rest.first fun entity h => Runs.pure ⟨hfunction,h⟩
    refine (literal_runs "E" _).first fun _ _ => (consumed_runs "s").first fun _ _ => Runs.ite
      (fun _ => ?_) fun _ => ?_
    · exact (scanning_runs discriminator_runs).first fun _ _ => Runs.pure ⟨hfunction,trivial⟩
    refine (consumed_runs "d").first fun _ _ => Runs.ite (fun _ => ?_) fun _ => ?_
    · refine (consumed_runs "_").first fun _ _ => Runs.ite (fun _ => entity) fun _ => ?_
      exact (scanning_runs (digits_runs _)).rest.first fun _ _ => (literal_runs "_" _).first
        fun _ _ => entity
    · exact hr.name.rest.first fun entity h => (scanning_runs discriminator_runs).first
        fun _ _ => Runs.pure ⟨hfunction,h⟩

theorem substitutedName_runs : Runs 1 (substitutedName r) fun named => named.node.Sound := by
  unfold substitutedName
  refine substitution_runs.first fun name h => (lookedAt_runs "I").first fun _ _ => Runs.ite
    (fun _ => ?_) fun _ => ?_
  · exact hr.templateArgs.rest.first fun _ hnodes => Runs.pure ⟨h,Node.allSound_iff.mpr hnodes⟩
  · split
    · exact Runs.pure h
    · exact unexpected_runs _

theorem name_runs : Runs 1 (name r) fun named => named.node.Sound := by
  unfold name
  refine (lookedAt_runs "N").andThen fun _ _ => Runs.ite (fun _ => hr.nestedName) fun _ => ?_
  refine (lookedAt_runs "Z").andThen fun _ _ => Runs.ite (fun _ => hr.localName) fun _ => ?_
  refine (lookedAt_runs "S").andThen fun _ _ => (lookedAt_runs "St").andThen fun _ _ => Runs.ite
    (fun _ => substitutedName_runs hr) fun _ => ?_
  refine (unscopedName_runs hr).first fun named h => (lookedAt_runs "I").first fun _ _ => Runs.ite
    (fun _ => ?_) fun _ => Runs.pure h
  exact (remember_runs h).first fun _ _ => hr.templateArgs.rest.first fun _ hnodes =>
    Runs.pure ⟨h,Node.allSound_iff.mpr hnodes⟩

end

end MangledNames.Grammar
