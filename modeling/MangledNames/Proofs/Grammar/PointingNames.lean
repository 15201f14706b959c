import MangledNames.Proofs.Grammar.PointingTypes
import MangledNames.Grammar.UnresolvedName
set_option autoImplicit false

/-!
Names and unresolved names report faults that point at the text, if the productions below them do,
but for the constructors that are taken over from a base class.
-/

namespace MangledNames.Grammar

open Cursor

section
variable {g : Region}

theorem abiTags_points (name : Node) : Points g (abiTags name) := by
  unfold abiTags
  exact (Points.itemsUntil (.lookAt fun _ => .pure _)
    (.expect (scanning_points identifier_points))).bind
    fun _ => .ite (fun _ => .pure _) fun _ => build_points _

theorem structuredBindingName_points : Points g structuredBindingName := by
  unfold structuredBindingName
  exact .expect (properName_points.bind fun _ => (Points.itemsToE properName_points).bind
    fun _ => build_points _)

end

section
variable {g : Region} {r : Rules} (hr : r.Point g)
include hr

theorem unnamedTypeName_points : Points g (unnamedTypeName r) := by
  have closure : ∀ parameters : List Node, Points g (do
      build (.closureTypeName parameters (← numberSuffix "closure number")) : Parser Node) :=
    fun _ => .scan (numberSuffix_points _) fun _ => build_points _
  have parameters : Points g (do
      let parameters ← if ← consume "vE" then pure [] else itemsToE r.type
      build (.closureTypeName parameters (← numberSuffix "closure number")) : Parser Node) :=
    .consume fun _ => .ite (fun _ => closure []) fun _ => (Points.itemsToE hr.type).bind closure
  unfold unnamedTypeName
  refine .here fun start hstart => .scan hstart (expect_points _ _) fun _ c hU hc =>
    .scan hc (consume_points _) fun _ c hunnamed hc => ?_
  have hstart_ne : start.rest ≠ [] := by simp [expect_ok hU]
  refine .ite
      (fun _ => .of_points (.scan (numberSuffix_points _) fun _ => build_points _) hc) fun _ =>
    .scan hc (consume_points _) fun _ c _ hc => .ite (fun _ => ?_) fun _ => .of_points ?_ hc
  · refine .scan hc (lookingAt_points _) fun found c' hlook hc' => .scan hc' (peekIs_points _ _)
      fun _ c'' hpeek hc'' => .ite (fun hdeclared => ?_) fun _ => .of_points parameters hc''
    obtain ⟨rfl,rfl⟩ := lookingAt_ok hlook
    obtain rfl := peekIs_ok hpeek
    refine .here (.bind (.error hc (hc.points_extension _ fun hnil => ?_)) fun _ => parameters)
    rw [hnil] at hdeclared
    cases hdeclared
  · exact .lookAt fun _ => .ite (fun _ => .error (hstart.points_extension _ hstart_ne))
      fun _ => unexpected_points _

theorem operatorName_points : Points g (operatorName r) := by
  unfold operatorName
  refine .here fun start hstart => .scan hstart (takeCode_points _) fun code c hcode hc => ?_
  split
  · exact .of_points ((hr.type.allowingTemplateArgs false).bind fun _ => .pure _) hc
  · exact .of_points (properName_points.bind fun _ => .pure _) hc
  · refine .ite
      (fun _ => .of_points (properName_points.bind fun _ =>
      (build_points _).bind fun _ => .pure _) hc)
      fun _ => ?_
    split
    · exact .of_points (.pure _) hc
    · refine .error hc (hstart.points_token _ [code.2] ?_)
      rw [takeCode_ok hcode]
      simp

theorem unqualifiedName_points : Points g (unqualifiedName r) := by
  have tagged : ∀ named : Named, Points g (do
      return { named with node := ← abiTags named.node } : Parser Named) :=
    fun named => (abiTags_points named.node).bind fun _ => .pure _
  have untraited : ∀ node : Node, Points g (do
      let named : Named ← pure { node := node }
      return { named with node := ← abiTags named.node } : Parser Named) :=
    fun node => (Points.pure _).bind tagged
  unfold unqualifiedName
  exact .lookFor fun _ => .lookAt fun _ => .lookAt fun _ => .lookFor fun _ =>
    .ite (fun _ => sourceName_points.bind untraited) fun _ =>
    .ite (fun _ => (unnamedTypeName_points hr).bind untraited) fun _ =>
    .ite (fun _ => structuredBindingName_points.bind untraited) fun _ =>
    .ite (fun _ => (operatorName_points hr).bind tagged) fun _ => (unexpected_points _).bind tagged

theorem unscopedName_points : Points g (unscopedName r) := by
  unfold unscopedName
  exact .consume fun _ => .consume fun _ => hr.unqualifiedName.bind fun _ => .pure _

/-- The code of a constructor or destructor is quoted as it stands, but for `CI`. -/
theorem ctorDtorKind_points (scope : Node) (start : Cursor) {c : Cursor}
    (inheriting : Bool) (code : Code) (hc : g.Contains c)
    (htells : (DemangleError.unexpectedToken "constructor or destructor" start.position
        code.text).PointsInto g ∨
      (DemangleError.unexpectedToken "constructor or destructor" start.position
        code.text).Misquotes g) :
    PointsFrom g c (match CtorDtorKind.ofCode? code with
      | none => fail (.unexpectedToken "constructor or destructor" start.position (Code.text code))
      | some kind => do
        let base ← if inheriting then some <$> r.type else pure none
        return {
          node := ← build (.ctorDtorName kind scope.className base)
          traits := { ctorDtorConversion := true } } : Parser Named) := by
  have named : ∀ (kind : CtorDtorKind) (base : Option Node), Points g (do
      return {
        node := ← build (.ctorDtorName kind scope.className base)
        traits := { ctorDtorConversion := true } } : Parser Named) :=
    fun _ _ => (build_points _).bind fun _ => .pure _
  split
  · exact ⟨fun context hcontext => ⟨hcontext.symm ▸ hc,htells⟩⟩
  · cases inheriting with
    | true => exact .of_points (hr.type.map.bind (named _)) hc
    | false => exact .of_points ((Points.pure _).bind (named _)) hc

theorem ctorDtorName_points (scope : Node) : Points g (ctorDtorName r scope) := by
  unfold ctorDtorName
  refine .here fun start hstart => .scan hstart (consume_points _) fun inheriting c hCI hc => ?_
  have hCI := consume_ok hCI
  cases inheriting with
  | true =>
    refine .ite (fun _ => ?_) fun h => absurd rfl h
    rw [bind_map_left]
    refine .scan hc (next_points _) fun kind after hkind hafter =>
      ctorDtorKind_points hr scope start true ('C',kind) hafter
        (.inr ⟨rfl,hstart.start,kind,rfl,?_⟩)
    rw [hstart.drop,hCI,next_ok hkind]
    simp
  | false =>
    obtain rfl : c = start := hCI
    refine .scan hc (takeCode_points _) fun code after hcode hafter =>
      ctorDtorKind_points hr scope c false code hafter (.inl (hc.points_token _ [code.2] ?_))
    rw [takeCode_ok hcode]
    simp

theorem nestedComponent_points (scope : Option Node) (traits : NameTraits) :
    Points g (nestedComponent r scope traits) := by
  unfold nestedComponent
  extract_lets traits unqualified ctorDtor
  have hunqualified : Points g unqualified := hr.unqualifiedName.bind fun _ => .pure _
  have hctorDtor : ∀ scope : Node, Points g (ctorDtor scope) :=
    fun scope => (ctorDtorName_points hr scope).bind fun _ =>
      (abiTags_points _).bind fun _ => .pure _
  refine .look fun next => ?_
  split
  · cases scope with
    | none => exact unexpected_points _
    | some scope => exact hr.templateArgs.bind fun _ => .pure _
  · exact templateParam_points.bind fun _ => .pure _
  · cases scope with
    | none => exact hunqualified
    | some scope => exact hctorDtor scope
  · refine .lookFor fun _ => .ite (fun _ => (decltype_points hr).bind fun _ => .pure _) fun _ => ?_
    cases scope with
    | none => exact hunqualified
    | some scope => exact .lookAt fun _ => .ite (fun _ => hunqualified) fun _ => hctorDtor scope
  · exact hunqualified

theorem nestedRound_points (state : Option Node × NameTraits) : Points g (nestedRound r state) := by
  obtain ⟨scope,traits⟩ := state
  unfold nestedRound
  refine .here fun start hstart => .scan hstart (consume_points _) fun found c hfound hc =>
    .ite (fun hend => ?_) fun _ => .of_points (.consume fun _ => ?_) hc
  · have hE := consume_ok hfound
    rw [if_pos hend] at hE
    split
    · exact .of_points (.pure _) hc
    · refine .error hc (hstart.points_token _ [] ?_)
      rw [hE]
      simp
  refine .here fun start hstart => .scan hstart (consume_points _) fun found c hfound hc =>
    .ite (fun hscope => ?_) fun _ => .of_points ?_ hc
  · have hM := consume_ok hfound
    rw [if_pos hscope] at hM
    refine .of_points (.guard (.error (hstart.points_token _ [] ?_)) (.pure _)) hc
    rw [hM]
    simp
  · refine .lookAt fun _ => .ite (fun _ => .guard (unexpected_points _) ?_) fun _ => ?_
    · exact substitution_points.bind fun _ => .pure _
    · exact (nestedComponent_points hr scope traits).bind fun _ => .lookAt fun _ =>
        .ite (fun _ => .pure _) fun _ => .remember (.pure _)

theorem nestedName_points : Points g (nestedName r) := by
  unfold nestedName
  exact .expect (.scan cvQualifiers_points fun _ => .scan refQualifier_points fun _ =>
      .consume fun _ =>
    .repeatRound (nestedRound_points hr) _)

theorem localName_points : Points g (localName r) := by
  have entity : ∀ function : Encoding Node, Points g (do
      let entity ← r.name
      return { entity with node := .localName function entity.node } : Parser Named) :=
    fun _ => hr.name.bind fun _ => .pure _
  unfold localName
  refine .expect
    (.lookFor fun _ => .guard (unexpected_points _) (hr.encoding.bind fun encoding => ?_))
  split
  · exact .expect
        (.consume fun _ => .ite (fun _ => .scan discriminator_points fun _ => .pure _) fun _ =>
      .consume fun _ => .ite (fun _ => .consume fun _ => .ite (fun _ => entity _) fun _ =>
        .scan (digits_points _) fun _ => .expect (entity _)) fun _ =>
      hr.name.bind fun _ => .scan discriminator_points fun _ => .pure _)
  · exact .broken _

theorem substitutedName_points : Points g (substitutedName r) := by
  unfold substitutedName
  refine substitution_points.bind fun name => .lookAt fun _ =>
    .ite (fun _ => hr.templateArgs.bind fun _ => .pure _) fun _ => ?_
  split
  · exact .pure _
  · exact unexpected_points _

theorem name_points : Points g (name r) := by
  unfold name
  exact .lookAt fun _ => .ite (fun _ => hr.nestedName) fun _ =>
    .lookAt fun _ => .ite (fun _ => hr.localName) fun _ =>
    .lookAt fun _ => .lookAt fun _ => .ite (fun _ => substitutedName_points hr) fun _ =>
    (unscopedName_points hr).bind fun _ => .lookAt fun _ =>
    .ite (fun _ => .remember (hr.templateArgs.bind fun _ => .pure _)) fun _ => .pure _

theorem simpleId_points : Points g (simpleId r) := by
  unfold simpleId
  exact sourceName_points.bind fun _ => withTemplateArgs_points hr _

theorem unresolvedType_points : Points g (unresolvedType r) := by
  unfold unresolvedType
  refine .look fun next => ?_
  split
  · exact .remembered templateParam_points
  · exact .remembered (decltype_points hr)
  · exact substitution_points
  · exact unexpected_points _

theorem baseUnresolvedName_points : Points g (baseUnresolvedName r) := by
  unfold baseUnresolvedName
  exact .lookFor fun _ => .ite (fun _ => simpleId_points hr) fun _ =>
    .consume fun _ =>
      .ite (fun _ => (operatorName_points hr).bind fun _ => withTemplateArgs_points hr _)
      fun _ =>
    .consume fun _ => .ite (fun _ => .lookFor fun _ =>
      .ite (fun _ => (simpleId_points hr).bind fun _ => .pure _)
        fun _ => (unresolvedType_points hr).bind fun _ => .pure _) fun _ => unexpected_points _

theorem qualifiedTo_points (qualifier : Node) : Points g (qualifiedTo r qualifier) := by
  unfold qualifiedTo
  exact (Points.itemsToE (simpleId_points hr)).bind fun _ =>
    (baseUnresolvedName_points hr).bind fun _ => .pure _

theorem terminatedLevels_points : Points g (terminatedLevels r) := by
  unfold terminatedLevels
  exact (simpleId_points hr).bind fun _ => qualifiedTo_points hr _

theorem triedLevels_points {cursorCheckpoint : Nat} (h : g.start ≤ cursorCheckpoint) :
    Points g (do
      let substitutionsCheckpoint := (← get).substitutions.size
      match ← trial (terminatedLevels r) with
      | some name => return name
      | none =>
        abandon cursorCheckpoint substitutionsCheckpoint
        singleLevel r : Parser Node) := by
  have single : Points g (singleLevel r) :=
    (simpleId_points hr).bind fun _ => (baseUnresolvedName_points hr).bind fun _ => .pure _
  refine .get fun table => (Points.trial (terminatedLevels_points hr)).bind fun found => ?_
  split
  · exact .pure _
  · exact (Points.abandon h _).bind fun _ => single

theorem qualifierLevels_points : Points g (qualifierLevels r) := by
  unfold qualifierLevels
  refine .get fun context => .ite (fun _ => terminatedLevels_points hr) fun _ =>
    ⟨fun context hc => ?_⟩
  exact (triedLevels_points hr hc.start).ends context hc

theorem scopedName_points : Points g (scopedName r) := by
  have qualifier : Points g (qualifierType r) :=
    (unresolvedType_points hr).bind fun _ => withTemplateArgs_points hr _
  unfold scopedName
  exact .consume fun _ => .ite (fun _ => qualifier.bind fun _ => qualifiedTo_points hr _) fun _ =>
    .consume fun _ =>
        .ite (fun _ => .lookFor fun _ => .ite (fun _ => qualifierLevels_points hr) fun _ =>
      qualifier.bind fun _ => (baseUnresolvedName_points hr).bind fun _ => .pure _) fun _ =>
      baseUnresolvedName_points hr

theorem unresolvedName_points (globalScope : Bool) : Points g (unresolvedName r globalScope) := by
  unfold unresolvedName
  exact (scopedName_points hr).bind fun _ => .pure _

end

end MangledNames.Grammar
