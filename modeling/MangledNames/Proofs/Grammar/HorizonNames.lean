import MangledNames.Proofs.Grammar.HorizonTypes
set_option autoImplicit false

/-!
Names read the same whatever stands behind the text, if the productions below them do.
-/

namespace MangledNames.Grammar

open Cursor Horizon

section
variable {v : Outlook} {n : Nat}

theorem abiTags_sees (name : Node) : (v.parses n).Sees 0 (abiTags name) := by
  unfold abiTags
  refine Sees.first (itemsUntil_sees_of_look (f := fun rest => !("B".toList.isPrefixOf rest))
    (fun _ => rfl) (fun rest => ?_) ?_) fun tags =>
      .ite (fun _ => done_sees _) fun _ => build_sees _
  · rcases prefix_edge (v := v) "B".toList (by decide) rest with h | ⟨hloose,hwide,hlength⟩
    · exact .inl (congrArg _ h)
    · exact .inr ⟨hloose,by simp only [hwide]; rfl,List.length_eq_zero_iff.mp (by
        change rest.length < 1 at hlength
        omega)⟩
  · exact Sees.first (literal_sees "B" _) fun _ => Sees.rest (scanning_sees identifier_sees)

theorem structuredBindingName_sees : (v.parses n).Sees 2 structuredBindingName := by
  unfold structuredBindingName
  exact Sees.first (literal_sees "DC" _) fun _ => Sees.after properName_sees fun _ =>
    Sees.after (itemsToE_sees (Sees.le properName_sees (by decide))) fun _ => build_sees _

end

/-- Behind an `sr`, at a digit. -/
def AtLevels (context : Context) : Prop :=
  (∃ passed, context.cursor.passed = 'r' :: 's' :: passed) ∧
    context.cursor.rest.head?.any isDigit = true

section
variable {v : Outlook} {n : Nat} {r : Rules} (h : r.Foresee v n)
include h

theorem unnamedTypeName_sees : (v.parses n).Sees 2 (unnamedTypeName r) := by
  unfold unnamedTypeName
  have closure : ∀ parameters : List Node, (v.parses n).Sees 1
      (do build (.closureTypeName parameters (← numberSuffix "closure number"))) :=
    fun _ => Sees.first (scanning_sees (numberSuffix_sees _)) fun _ => build_sees _
  have parameters : (v.parses n).Sees 2 (do
      let parameters ← if ← consume "vE" then pure [] else itemsToE r.type
      build (.closureTypeName parameters (← numberSuffix "closure number"))) :=
    Sees.ifFound (k := 0) (consumed_parses "vE" (by decide))
      (Sees.after (done_sees _) fun _ => Sees.rest (closure _))
      (Sees.andThen (itemsToE_sees h.type) closure) (by decide)
  refine here_sees (fun _ => rfl) fun c => Sees.andThen (n := 1) (k := 1) (literal_sees "U" _)
    fun _ => ?_
  refine Sees.ifFound (k := 0) (consumed_parses "t" (by decide)) ?_ ?_ (by decide)
  · exact Sees.after (scanning_sees (numberSuffix_sees _)) fun _ => build_sees _
  refine Sees.ifFound (k := 2) (consumed_parses "l" (by decide)) ?_ ?_ (by decide)
  · refine lookedAhead_sees
      (fun _ => peekedAhead_sees (fun _ => .ite (fun _ => ?_) fun _ => parameters)
      (Nat.le_refl 2)) (by decide)
    exact here_sees (fun _ => rfl) fun c => Sees.failing fail_sees
  · exact lookedAt_sees (k := 1) (by decide) fail_sees (unexpected_sees _) (by decide)

theorem operatorName_sees : (v.parses n).Sees 2 (operatorName r) := by
  unfold operatorName
  refine here_sees (fun _ => rfl) fun c => Sees.first (code_sees _) fun code => ?_
  split
  · exact Sees.after (allowingTemplateArgs_sees false h.type) fun _ => done_sees _
  · exact Sees.after properName_sees fun _ => done_sees _
  · refine .ite (fun _ => ?_) fun _ => ?_
    · exact Sees.after properName_sees fun _ => Sees.after (build_sees _) fun _ => done_sees _
    · split
      · exact done_sees _
      · exact fail_sees

theorem ctorDtorName_sees (scope : Node) : (v.parses n).Sees 2 (ctorDtorName r scope) := by
  unfold ctorDtorName
  refine here_sees (fun _ => rfl) fun c => (consumed_parses "CI" (by decide)).bind
    fun d inheriting hd => ?_
  cases inheriting with
  | true =>
    have hreads : 2 ≤ d := hd rfl
    refine (Sees.after (Sees.map (scanning_sees (next_sees _))) fun code => ?_ :
      (v.parses n).Sees 0 _).imp fun _ _ _ => by omega
    dsimp only
    split
    · exact fail_sees
    · exact Sees.after (Sees.map h.type) fun _ => Sees.after (build_sees _) fun _ => done_sees _
  | false =>
    refine (Sees.first (code_sees _) fun code => ?_ : (v.parses n).Sees 2 _).imp
      fun _ _ _ => by omega
    dsimp only
    split
    · exact fail_sees
    · exact Sees.after (done_sees _) fun _ => Sees.after (build_sees _) fun _ => done_sees _

theorem unqualifiedName_sees : (v.parses n).Sees 2 (unqualifiedName r) := by
  have tagged : ∀ named : Named, (v.parses n).Sees 0
      (do return { named with node := ← abiTags named.node } : Parser Named) :=
    fun named => Sees.after (abiTags_sees named.node) fun _ => done_sees _
  unfold unqualifiedName
  refine peekedAhead_sees (fun _ => lookedAhead_sees (fun _ => lookedAhead_sees (fun _ =>
    peekedAhead_sees (fun _ => .ite (fun _ => ?_) fun _ => .ite (fun _ => ?_) fun _ => .ite
      (fun _ => ?_) fun _ => .ite (fun _ => ?_) fun _ => ?_) (by decide)) (by decide)) (by decide))
      (by decide)
  · exact Sees.first sourceName_sees fun _ => Sees.after (done_sees _) tagged
  · exact Sees.first (unnamedTypeName_sees h) fun _ => Sees.after (done_sees _) tagged
  · exact Sees.first structuredBindingName_sees fun _ => Sees.after (done_sees _) tagged
  · exact Sees.first (operatorName_sees h) tagged
  · exact Sees.failing (unexpected_sees _)

theorem unscopedName_sees : (v.parses n).Sees 2 (unscopedName r) := by
  unfold unscopedName
  exact Sees.after (consumed_parses _ (by decide)) fun _ =>
    Sees.after (consumed_parses _ (by decide))
    fun _ => Sees.first h.unqualifiedName fun _ => done_sees _

theorem nestedComponent_sees (scope : Option Node) (traits : NameTraits) :
    (v.parses n).Sees 1 (nestedComponent r scope traits) := by
  have unqualified : ∀ finish : Named → Named, (v.parses n).Sees 2
      (do return finish (← r.unqualifiedName)) :=
    fun _ => Sees.first h.unqualifiedName fun _ => done_sees _
  have ctorDtor : ∀ (scope : Node) (finish : Node → Named), (v.parses n).Sees 2
      (do return finish (← abiTags (← ctorDtorName r scope).node)) := fun scope _ =>
    Sees.first (ctorDtorName_sees h scope) fun named => Sees.after (abiTags_sees named.node)
      fun _ => done_sees _
  unfold nestedComponent
  refine peeked_sees (fun next => ?_) (by decide)
  split
  · cases scope with
    | none => exact .of_seesTo (unexpected_sees _)
    | some scope =>
      exact .of_seesTo (Sees.first (Sees.le h.templateArgs (by decide)) fun _ => done_sees _)
  · exact .of_seesTo (Sees.first (Sees.le templateParam_sees (by decide)) fun _ => done_sees _)
  · cases scope with
    | none => exact .of_seesTo (Sees.le (unqualified _) (by decide))
    | some scope => exact .of_seesTo (Sees.le (ctorDtor scope _) (by decide))
  · refine .of_seesTo (Sees.le (n := 2) (peekedAhead_sees (fun _ => .ite (fun _ => ?_) fun _ => ?_)
      (by decide)) (by decide))
    · exact Sees.first (decltype_sees h) fun _ => done_sees _
    · cases scope with
      | none => exact unqualified _
      | some scope =>
        exact lookedAhead_sees (fun _ => .ite (fun _ => unqualified _) fun _ => ctorDtor scope _)
          (by decide)
  · exact .of_seesTo (Sees.le (unqualified _) (by decide))

omit h in
/-- A component that ends at the end of the text is not remembered if the tail starts with `E`; then
what follows reads that. -/
theorem rememberedUnlessLast_sees {β : Type} (node : Node) (next : β) :
    SeesRound v n 0 (do
      unless ← lookingAt "E" do remember node
      return .again next : Parser (Round β Named)) := by
  let last : Parser (Round β Named) := pure (.again next)
  let component : Parser (Round β Named) := do
    remember node
    return .again next
  have hlast : (v.parses n).Sees 0 last := done_sees _
  have hcomponent : (v.parses n).Sees 0 component :=
    Sees.after (remember_sees node) fun _ => done_sees _
  have hround : ∀ context : Context, (do
      unless ← lookingAt "E" do remember node
      return .again next : Parser (Round β Named)) context =
      (if "E".toList.isPrefixOf context.cursor.rest = true then last else component) context :=
    fun _ => rfl
  refine ⟨fun context => ?_,fun context hcontext => ?_⟩
  · rw [hround]
    split
    · exact hlast.moves context
    · exact hcomponent.moves context
  · simp only [AgreesOrLeads,hround]
    have hrest : (context.followedBy v.tail).cursor.rest = context.cursor.rest ++ v.tail := rfl
    rw [hrest]
    rcases prefix_edge (v := v) "E".toList (by decide) context.cursor.rest with
      h | ⟨hloose,hwide,hlength⟩
    · rw [h]
      refine .inl ?_
      split
      · exact hlast.agrees context hcontext trivial
      · exact hcomponent.agrees context hcontext trivial
    · have hrest : context.cursor.rest = [] :=
        List.length_eq_zero_iff.mp (Nat.lt_one_iff.mp hlength)
      refine .inr ⟨hloose,Nat.le_refl 1,next,context.followedBy v.tail,?_,?_⟩
      · rw [if_pos hwide]
        rfl
      · simp [Context.followedBy,Cursor.followedBy,hrest]

theorem nestedRound_sees (state : Option Node × NameTraits) :
    SeesRound v n 1 (nestedRound r state) := by
  obtain ⟨scope,traits⟩ := state
  unfold nestedRound
  refine .here (fun _ => rfl) fun c => .bind (consumed_parses "E" (by decide))
    fun d found hd => .ite (fun hfound => ?_) fun _ => .le (k := 1) ?_ (Nat.sub_le ..)
  · have hd : 1 ≤ d := hd hfound
    refine .le (k := 0) (.of_sees ?_) (by omega)
    cases scope with
    | none => exact fail_sees
    | some node => exact done_sees _
  refine .bind (consumed_parses "L" (by decide)) fun d _ _ => .le (k := 1)
    (.here (fun _ => rfl) fun c => .bind (consumed_parses "M" (by decide))
      fun d found hd => .ite (fun hfound => ?_) fun _ => .le (k := 1) ?_ (Nat.sub_le ..))
        (Nat.sub_le ..)
  · have hd : 1 ≤ d := hd hfound
    exact .le (k := 0) (.of_sees (Sees.guard fail_sees (done_sees _))) (by omega)
  refine .lookedAhead (fun _ => .ite (fun _ => ?_) fun _ => ?_) (Nat.le_refl 1)
  · exact .of_sees (Sees.guard (unexpected_sees _)
      (Sees.first (Sees.le substitution_sees (by decide)) fun _ => done_sees _))
  · exact .bind (nestedComponent_sees h scope traits) fun d named hd =>
      .le (rememberedUnlessLast_sees named.node (some named.node,named.traits)) (by omega)

theorem nestedName_sees : (v.parses n).Sees 2 (nestedName r) := by
  unfold nestedName
  exact Sees.andThen (n := 1) (k := 1) (literal_sees "N" _) fun _ =>
    Sees.after (scanning_sees cvQualifiers_sees) fun cv =>
      Sees.after (scanning_sees refQualifier_sees) fun ref =>
        Sees.after (consumed_parses _ (by decide)) fun inStd =>
          repeatRound_sees_of_leads (nestedRound_sees h) _

theorem localName_sees : (v.parses n).Sees 2 (localName r) := by
  have named : ∀ function : Encoding Node, (v.parses n).Sees 0 (do
      let entity ← r.name
      return { entity with node := .localName function entity.node } : Parser Named) :=
    fun function => Sees.after h.name fun _ => done_sees _
  unfold localName
  refine Sees.andThen (n := 1) (k := 1) (literal_sees "Z" _) fun _ => peekedAhead_sees (fun _ =>
    Sees.guard (unexpected_sees _) (Sees.first (Sees.le h.encoding (by decide)) fun function => ?_))
    (Nat.le_refl 1)
  split
  · refine Sees.after (literal_sees "E" _) fun _ => ?_
    refine Sees.ifFound (k := 0) (consumed_parses "s" (by decide)) ?_ ?_ (Nat.zero_le _)
    · exact Sees.after (scanning_sees discriminator_sees) fun _ => done_sees _
    refine Sees.ifFound (k := 0) (consumed_parses "d" (by decide)) ?_ ?_ (Nat.zero_le _)
    · refine Sees.after (consumed_parses "_" (by decide)) fun _ => .ite
        (fun _ => named _) fun _ => ?_
      exact Sees.after (scanning_sees (digits_sees _)) fun _ => Sees.after (literal_sees "_" _)
        fun _ => named _
    · exact Sees.after h.name fun _ => Sees.after (scanning_sees discriminator_sees) fun _ =>
        done_sees _
  · exact .throw

theorem substitutedName_sees : (v.parses n).Sees 2 (substitutedName r) := by
  unfold substitutedName
  refine Sees.first substitution_sees fun name =>
    lookedAt_sees (k := 2) (by decide) ?_ ?_ (by decide)
  · exact Sees.first h.templateArgs fun _ => done_sees _
  · rw [if_neg Bool.false_ne_true]
    split
    · exact done_sees _
    · exact unexpected_sees _

theorem name_sees : (v.parses n).Sees 2 (name r) := by
  unfold name
  refine lookedAhead_sees (fun _ => .ite (fun _ => h.nestedName) fun _ => lookedAhead_sees (fun _ =>
    .ite (fun _ => h.localName) fun _ => lookedAhead_sees (fun _ => lookedAhead_sees (fun _ => .ite
      (fun _ => substitutedName_sees h) fun _ => ?_) (by decide)) (by decide))
        (by decide)) (by decide)
  refine Sees.first (unscopedName_sees h) fun named => lookedAt_sees (k := 2) (by decide) ?_
    (done_sees _) (by decide)
  exact Sees.after (remember_sees named.node) fun _ =>
    Sees.first h.templateArgs fun _ => done_sees _

theorem simpleId_sees : (v.parses n).Sees 2 (simpleId r) := by
  unfold simpleId
  exact Sees.first sourceName_sees fun name => withTemplateArgs_sees h name

theorem unresolvedType_sees : (v.parses n).Sees 2 (unresolvedType r) := by
  unfold unresolvedType
  refine peeked_sees (fun next => .of_seesTo ?_) (by decide)
  split
  · exact remembered_sees templateParam_sees
  · exact remembered_sees (decltype_sees h)
  · exact substitution_sees
  · exact unexpected_sees _

theorem baseUnresolvedName_sees : (v.parses n).Sees 2 (baseUnresolvedName r) := by
  unfold baseUnresolvedName
  refine peekedAhead_sees (fun _ => .ite (fun _ => simpleId_sees h) fun _ => ?_) (by decide)
  refine Sees.ifFound (k := 0) (consumed_parses "on" (by decide)) ?_ ?_ (by decide)
  · exact Sees.after (operatorName_sees h) fun named => withTemplateArgs_sees h named.node
  refine Sees.ifFound (k := 2) (consumed_parses "dn" (by decide)) ?_ (unexpected_sees _)
    (by decide)
  refine peekedAhead_sees (fun _ => .ite (fun _ => ?_) fun _ => ?_) (by decide)
  · exact Sees.first (simpleId_sees h) fun _ => done_sees _
  · exact Sees.first (unresolvedType_sees h) fun _ => done_sees _

theorem qualifiedTo_sees (qualifier : Node) : (v.parses n).Sees 2 (qualifiedTo r qualifier) := by
  unfold qualifiedTo
  exact Sees.after (itemsToE_sees (Sees.le (simpleId_sees h) (by decide))) fun _ =>
    Sees.first (baseUnresolvedName_sees h) fun _ => done_sees _

theorem terminatedLevels_sees : (v.parses n).Sees 2 (terminatedLevels r) := by
  unfold terminatedLevels
  exact Sees.after (simpleId_sees h) fun qualifier => qualifiedTo_sees h qualifier

theorem singleLevel_sees : (v.parses n).Sees 2 (singleLevel r) := by
  unfold singleLevel
  exact Sees.first (simpleId_sees h) fun _ => Sees.after (baseUnresolvedName_sees h) fun _ =>
    done_sees _

theorem qualifierType_sees : (v.parses n).Sees 2 (qualifierType r) := by
  unfold qualifierType
  exact Sees.first (unresolvedType_sees h) fun name => withTemplateArgs_sees h name

/-- Whether levels of qualifiers follow an `sr` is seen in the text, or they lead astray. -/
theorem scopedNameOver_sees {levels : Parser Node}
    (hlevels : (v.parses n).SeesFrom AtLevels levels fun d _ => 1 ≤ d) :
    (v.parses n).Sees 2 (scopedNameOver levels r) := by
  unfold scopedNameOver
  refine Sees.ifFound (k := 0) (consumed_parses "srN" (by decide)) ?_ ?_ (by decide)
  · exact Sees.after (qualifierType_sees h) fun qualifier =>
      Sees.rest (qualifiedTo_sees h qualifier)
  refine (consumed_parses "sr" (by decide)).bindFrom
    (fun found after => found = true → ∃ passed, after.cursor.passed = 'r' :: 's' :: passed) ?_
      fun d found hd => .ite (fun hfound => ?_) fun _ => ?_
  · rintro context found after - hconsumed rfl
    exact ⟨context.cursor.passed,passed_of_consumed hconsumed⟩
  · have hd : 2 ≤ d := hd hfound
    refine SeesFrom.imp (?_ : (v.parses n).SeesFrom _ _ fun _ _ => True) fun e _ _ => by omega
    refine look_sees (f := fun rest => rest[0]?.any isDigit) (fun _ => rfl) (fun seen => .ite
      (fun hseen => ?_) fun _ => .of_seesTo ?_) fun context _ => ?_
    · refine ⟨fun context => (hlevels.moves context).imp
        (fun _ _ ht => ⟨ht.1,trivial⟩) fun _ _ ht => ht,?_⟩
      rintro context hcontext ⟨hpassed,hdigit⟩
      refine hlevels.agrees context hcontext ⟨hpassed hfound,?_⟩
      rw [List.head?_eq_getElem?]
      exact hdigit.trans hseen
    · exact (Sees.after (qualifierType_sees h) fun _ =>
          Sees.after (baseUnresolvedName_sees h) fun _ =>
        done_sees _).imp fun _ _ _ => trivial
    · rcases peek_edge (v := v) isDigit (fun _ => not_isDigit_of_isStop)
        (Nat.zero_le context.cursor.rest.length) with hsame | ⟨hloose,hwide,hlength⟩
      · exact .inl hsame
      · refine .inr (.inr ⟨hloose,?_⟩)
        change (v.parses n).Moves
          (if (context.cursor.rest ++ v.tail)[0]?.any isDigit = true then levels else _) _
        rw [if_pos hwide]
        refine (hlevels.imp fun e _ he => ?_).moves
        change context.cursor.rest.length < e
        omega
  · exact .of_seesTo ((baseUnresolvedName_sees h).imp fun _ _ _ => by omega)

end

end MangledNames.Grammar
