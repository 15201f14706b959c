import MangledNames.Proofs.Grammar.SoundNames
import MangledNames.Proofs.Grammar.Trial
import MangledNames.Proofs.HexFloat.Digits
set_option autoImplicit false

/-!
Unresolved names and expressions read on and give sound nodes, if the productions below them do.
The trial that an unresolved name may begin with leaves nothing behind when it is given up.
-/

namespace MangledNames.Grammar

open Cursor

theorem foldl_nestedName_sound {levels : List Node} {qualifier : Node} (hq : qualifier.Sound)
    (h : ∀ node ∈ levels, node.Sound) : (levels.foldl .nestedName qualifier).Sound := by
  induction levels generalizing qualifier with
  | nil => exact hq
  | cons level levels ih =>
    rw [List.forall_mem_cons] at h
    exact ih ⟨hq,h.1⟩ h.2

section
variable {r : Rules} (hr : r.Sound)
include hr

theorem simpleId_runs : Runs 1 (simpleId r) Node.Sound := by
  unfold simpleId
  exact sourceName_runs.first fun _ h => withTemplateArgs_runs hr h

theorem unresolvedType_runs : Runs 1 (unresolvedType r) Node.Sound := by
  unfold unresolvedType
  refine (scanning_runs (peek_runs 0)).andThen fun c _ => ?_
  split
  · exact remembered_runs templateParam_runs
  · exact remembered_runs (decltype_runs hr)
  · exact substitution_runs
  · exact unexpected_runs _

theorem baseUnresolvedName_runs : Runs 1 (baseUnresolvedName r) Node.Sound := by
  unfold baseUnresolvedName
  refine (peeked_runs _ 0).andThen fun _ _ => Runs.ite (fun _ => simpleId_runs hr) fun _ => ?_
  refine consumed_else (by decide) ?_ (consumed_else (by decide) ?_ (unexpected_runs _))
  · exact (operatorName_runs hr).rest.first fun _ h => withTemplateArgs_runs hr h
  · refine (peeked_runs _ 0).first fun _ _ => Runs.ite (fun _ => ?_) fun _ => ?_
    · exact (simpleId_runs hr).rest.first fun _ h => Runs.pure h
    · exact (unresolvedType_runs hr).rest.first fun _ h => Runs.pure h

theorem qualifiedTo_runs {qualifier : Node} (h : qualifier.Sound) :
    Runs 1 (qualifiedTo r qualifier) Node.Sound := by
  unfold qualifiedTo
  exact (itemsToE_runs (simpleId_runs hr)).andThen fun levels hlevels =>
    (baseUnresolvedName_runs hr).first fun _ hname =>
      Runs.pure ⟨foldl_nestedName_sound h hlevels,hname⟩

theorem terminatedLevels_runs : Runs 1 (terminatedLevels r) Node.Sound := by
  unfold terminatedLevels
  exact (simpleId_runs hr).rest.andThen fun _ h => qualifiedTo_runs hr h

theorem singleLevel_runs : Runs 1 (singleLevel r) Node.Sound := by
  unfold singleLevel
  exact (simpleId_runs hr).first fun _ hqualifier => (baseUnresolvedName_runs hr).rest.first
    fun _ hname => Runs.pure ⟨hqualifier,hname⟩

/-- The only trial begins where none is going on, so no trial is inside another. -/
theorem qualifierLevels_runs : Runs 1 (qualifierLevels r) Node.Sound := by
  refine ⟨fun context hc => ?_⟩
  cases hs : context.speculative with
  | true =>
    rw [qualifierLevels_on_trial hs]
    exact (terminatedLevels_runs hr).ends context hc
  | false =>
    rw [qualifierLevels_off_trial hs]
    refine (trial_ends (terminatedLevels_runs hr) hc hs).bind ?_
    rintro (_ | name) t ⟨hct,hname⟩
    · change Ends _ _ ((abandon context.cursor.position context.substitutions.size >>=
        fun _ => singleLevel r) t)
      rw [bind_apply,abandon_apply hct.onward]
      exact (singleLevel_runs hr).ends context hc
    · exact ⟨hct,hname name rfl⟩

theorem qualifierType_runs : Runs 1 (qualifierType r) Node.Sound := by
  unfold qualifierType
  exact (unresolvedType_runs hr).first fun _ h => withTemplateArgs_runs hr h

theorem scopedName_runs : Runs 1 (scopedName r) Node.Sound := by
  unfold scopedName
  refine consumed_else (by decide) ?_ (consumed_else (by decide) ?_ (baseUnresolvedName_runs hr))
  · exact (qualifierType_runs hr).rest.first fun _ h => (qualifiedTo_runs hr h).rest
  · refine (peeked_runs _ 0).first fun _ _ => Runs.ite (fun _ => (qualifierLevels_runs hr).rest)
      fun _ => ?_
    exact (qualifierType_runs hr).rest.first fun _ hqualifier =>
      (baseUnresolvedName_runs hr).rest.first fun _ hname => Runs.pure ⟨hqualifier,hname⟩

theorem unresolvedName_runs (globalScope : Bool) :
    Runs 1 (unresolvedName r globalScope) Node.Sound := by
  unfold unresolvedName
  exact (scopedName_runs hr).first fun _ h => Runs.pure h

end

theorem functionParam_runs : Runs 1 functionParam Node.Sound := by
  have numbered : Runs 0 (do
      let _ ← cvQualifiers
      if ← consume "_" then return .functionParam none
      let number ← unsigned "function parameter"
      expect "_" "function parameter"
      return .functionParam (some number) : Scan Node) Node.Sound :=
    cvQualifiers_runs.first fun _ _ => (consume_runs "_").first fun _ _ => Runs.ite
      (fun _ => Runs.pure trivial) fun _ => (unsigned_runs _).rest.first fun _ _ =>
        (expect_runs "_" _ (Nat.zero_le _)).first fun _ _ => Runs.pure trivial
  unfold functionParam
  refine (consume_runs "fL").andThen fun _ _ => Runs.ite (fun _ => ?_) fun _ => ?_
  · exact (unsigned_runs _).first fun _ _ => (expect_runs "p" _ (Nat.zero_le _)).first
      fun _ _ => numbered
  · exact (expect_runs "fp" _ (by decide)).first fun _ _ => numbered

section
variable {r : Rules} (hr : r.Sound)
include hr

theorem expressionsToE_runs : Runs 0 (expressionsToE r) fun nodes => ∀ node ∈ nodes, node.Sound :=
  itemsToE_runs hr.expression

theorem newExpression_runs (globalScope : Bool) :
    Runs 1 (newExpression r globalScope) Node.Sound := by
  unfold newExpression
  refine (lookedAt_runs "na").andThen fun array _ => (code_runs _).first fun _ _ =>
    (itemsUntil_runs (consumed_runs "_") hr.expression).first fun placement hplacement =>
      hr.type.rest.first fun type htype => ?_
  have complete : ∀ initializer, Node.ListSound initializer → Runs 0
      (pure (.newExpression placement type initializer array globalScope) : Parser Node)
      Node.Sound :=
    fun _ h => Runs.pure ⟨Node.allSound_iff.mpr hplacement,htype,h⟩
  refine (consumed_runs "pi").first fun _ _ => (lookedAt_runs "il").first fun _ _ => Runs.ite
    (fun _ => ?_) fun _ => Runs.ite (fun _ => ?_) fun _ => ?_
  · exact ((expressionsToE_runs hr).map (f := some) (g := Node.ListSound)
      fun _ h => Node.allSound_iff.mpr h).first complete
  · exact hr.expression.rest.first fun e he => (Runs.pure (p := (· = some [e])) rfl).first
      fun initializer hinitializer => complete initializer (hinitializer ▸ ⟨he,trivial⟩)
  · exact (literal_runs "E" _).first fun _ _ => (Runs.pure (p := (· = none)) rfl).first
      fun initializer hinitializer => complete initializer (hinitializer ▸ trivial)

theorem deleteExpression_runs (globalScope : Bool) :
    Runs 1 (deleteExpression r globalScope) Node.Sound := by
  unfold deleteExpression
  exact (lookedAt_runs "da").andThen fun _ _ => (code_runs _).first fun _ _ =>
    hr.expression.rest.first fun _ h => Runs.pure h

omit hr in
theorem sizeofPack_runs : Runs 1 sizeofPack Node.Sound := by
  unfold sizeofPack
  refine (code_runs _).first fun _ _ => (lookedAt_runs "T").first fun _ _ => Runs.ite
    (fun _ => ?_) fun _ => (lookedAt_runs "fp").first fun _ _ => (lookedAt_runs "fL").first
      fun _ _ => Runs.ite (fun _ => ?_) fun _ => unexpected_runs _
  · exact templateParam_runs.rest.first fun _ h => Runs.pure h
  · exact (scanning_runs functionParam_runs).rest.first fun _ h => Runs.pure h

theorem memberExpression_runs (access : MemberAccess) :
    Runs 1 (memberExpression r access) Node.Sound := by
  unfold memberExpression
  exact (code_runs _).first fun _ _ => hr.expression.rest.first fun _ hobject =>
    (hr.unresolvedName false).rest.first fun _ hmember => Runs.pure ⟨hobject,hmember⟩

theorem operatorExpression_runs (code : Code) : Runs 1 (operatorExpression r code) Node.Sound := by
  unfold operatorExpression
  refine here_runs.andThen fun start _ => ?_
  split
  · exact fail_runs _
  rename_i operator _
  refine (code_runs _).first fun _ _ => ?_
  split
  · exact hr.expression.rest.first fun _ h => Runs.pure h
  · refine (consumed_runs "_").first fun _ _ => Runs.ite (fun _ => ?_) fun _ => ?_
    · exact hr.expression.rest.first fun _ h => Runs.pure h
    · exact hr.expression.rest.first fun _ h => Runs.pure h
  · exact hr.expression.rest.first fun _ hl => hr.expression.rest.first fun _ hright =>
      Runs.pure ⟨hl,hright⟩
  · exact hr.expression.rest.first fun _ hl => hr.expression.rest.first fun _ hright =>
      Runs.pure ⟨hl,hright⟩
  · exact hr.expression.rest.first fun _ h => hr.expression.rest.first fun _ ht =>
      hr.expression.rest.first fun _ hf => Runs.pure ⟨h,ht,hf⟩
  · exact fail_runs _

theorem codedExpression_runs (code : Code) : Runs 1 (codedExpression r code) Node.Sound := by
  have operand : ∀ {production : String} (wrap : Node → Node),
      (∀ node, node.Sound → (wrap node).Sound) → Runs 1 (do
        let _ ← takeCode production
        return wrap (← r.expression) : Parser Node) Node.Sound :=
    fun wrap hwrap => (code_runs _).first fun _ _ => hr.expression.rest.first fun node h =>
      Runs.pure (hwrap node h)
  unfold codedExpression
  split
  · exact (code_runs _).first fun _ _ => hr.type.rest.first fun _ htype =>
      hr.expression.rest.first fun _ h => Runs.pure ⟨htype,h⟩
  split
  · exact (code_runs _).first fun _ _ => hr.type.rest.first fun _ h => Runs.pure h
  split
  · exact operand (.expressionOperatorExpression _) fun _ h => h
  split
  · exact scanning_runs functionParam_runs
  · exact scanning_runs functionParam_runs
  · exact (code_runs _).first fun _ _ => hr.expression.rest.first fun _ h =>
      (expressionsToE_runs hr).first fun _ hnodes => Runs.pure ⟨h,Node.allSound_iff.mpr hnodes⟩
  · refine (code_runs _).first fun _ _ => hr.type.rest.first fun _ h =>
      (consumed_runs "_").first fun _ _ => Runs.ite (fun _ => ?_) fun _ => ?_
    · exact (expressionsToE_runs hr).first fun _ hnodes =>
        Runs.pure ⟨h,Node.allSound_iff.mpr hnodes⟩
    · exact hr.expression.rest.first fun _ hnode => Runs.pure ⟨h,hnode,trivial⟩
  · exact (code_runs _).first fun _ _ => hr.type.rest.first fun _ h =>
      (expressionsToE_runs hr).first fun _ hnodes => Runs.pure ⟨h,Node.allSound_iff.mpr hnodes⟩
  · exact (code_runs _).first fun _ _ => (expressionsToE_runs hr).first fun _ hnodes =>
      Runs.pure ⟨trivial,Node.allSound_iff.mpr hnodes⟩
  · exact newExpression_runs hr false
  · exact newExpression_runs hr false
  · exact deleteExpression_runs hr false
  · exact deleteExpression_runs hr false
  · exact sizeofPack_runs
  · exact (code_runs _).first fun _ _ => (itemsToE_runs hr.templateArg).first fun _ hnodes =>
      Runs.pure (Node.allSound_iff.mpr hnodes)
  · exact memberExpression_runs hr .dot
  · exact memberExpression_runs hr .arrow
  · exact (code_runs _).first fun _ _ => hr.expression.rest.first fun _ hobject =>
      hr.expression.rest.first fun _ hmember => Runs.pure ⟨hobject,hmember⟩
  · exact operand .packExpansionExpression fun _ h => h
  · exact operand (fun node => .throwExpression (some node)) fun _ h => h
  · exact (code_runs _).first fun _ _ => Runs.pure trivial
  · exact operatorExpression_runs hr code

theorem expression_runs : Runs 1 (expression r) Node.Sound := by
  unfold expression
  refine here_runs.andThen fun start _ => ?_
  split
  · exact unexpected_runs _
  · exact hr.exprPrimary
  · exact templateParam_runs
  · refine (letter_runs "gs" _ (by decide)).first fun _ _ => ?_
    refine (lookedAt_runs "nw").first fun _ _ => (lookedAt_runs "na").first fun _ _ => Runs.ite
      (fun _ => (newExpression_runs hr true).rest) fun _ => ?_
    exact (lookedAt_runs "dl").first fun _ _ => (lookedAt_runs "da").first fun _ _ => Runs.ite
      (fun _ => (deleteExpression_runs hr true).rest) fun _ => (hr.unresolvedName true).rest
  · exact hr.unresolvedName false
  · exact hr.unresolvedName false
  · exact hr.unresolvedName false
  · refine Runs.ite (fun _ => hr.unresolvedName false) fun _ => ?_
    split
    · exact fail_runs _
    · exact codedExpression_runs hr _

omit hr in
theorem integerValue?_isDecimal {value digits : List Char} (h : integerValue? value = some digits) :
    Node.isDecimal (String.ofList digits) = true := by
  have decimal : ∀ {digits : List Char}, digits.all isDigit = true →
      digits.all Char.isDigit = true :=
    fun h => by simpa [isDigit,Char.isDigit,Char.le_def] using h
  unfold integerValue? at h
  split at h
  · rename_i rest
    split at h
    · cases h
      rename_i hrest
      simp only [Bool.and_eq_true] at hrest
      simp [Node.isDecimal,hrest.1,decimal hrest.2]
    · cases h
  · split at h
    · cases h
      rename_i hrest
      simp only [Bool.and_eq_true] at hrest
      simp only [Node.isDecimal,String.toList_ofList]
      split
      · simp [isDigit] at hrest
      · simp [hrest.1,decimal hrest.2]
    · cases h

omit hr in
theorem literalOf_runs (start : Cursor) {type : Node} (h : type.Sound) (value : List Char) :
    Runs 0 (literalOf start type value) Node.Sound := by
  unfold literalOf
  split
  · split
    · exact Runs.pure h
    · exact fail_runs _
  split
  · exact Runs.pure trivial
  · exact Runs.pure trivial
  split
  · rename_i hfloating
    refine Runs.ite (fun hvalue => Runs.pure ⟨?_,hfloating,h⟩) fun _ => fail_runs _
    rw [String.toList_ofList]
    exact isFloatValue_toLower hvalue
  split
  · rename_i hdigits
    have hdecimal := integerValue?_isDecimal hdigits
    exact build_runs _ hdecimal ⟨hdecimal,h⟩
  · exact fail_runs _

theorem exprPrimary_runs : Runs 1 (exprPrimary r) Node.Sound := by
  unfold exprPrimary
  refine (letter_runs "L" _ (by decide)).first fun _ _ => (scanning_runs (consumeAny_runs _)).first
    fun _ _ => Runs.ite (fun _ => ?_) fun _ => (scanning_runs (consumeAny_runs _)).first fun _ _ =>
      Runs.ite (fun _ => Runs.pure trivial) fun _ => ?_
  · exact hr.encoding.rest.first fun _ h => (literal_runs "E" _).first fun _ _ => Runs.pure h
  · exact hr.type.rest.first fun type h => here_runs.first fun start _ =>
      (scanning_runs (takeUntil_runs _ _)).first fun value _ => literalOf_runs start h value

end

end MangledNames.Grammar
