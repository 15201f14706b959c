import MangledNames.Proofs.Grammar.LockstepNames
set_option autoImplicit false

/-!
Expressions, encodings and complete symbols are read alike by two runs over one text, with any
numbers of levels of which the second is not the smaller one.
-/

namespace MangledNames.Grammar

open Cursor

section
variable {front : List Char}

theorem functionParam_alike : (Cursor.lockstep front).Alike functionParam functionParam := by
  have numbered : (Cursor.lockstep front).Alike (do
      let _ ← cvQualifiers
      if ← consume "_" then return .functionParam none
      let number ← unsigned "function parameter"
      expect "_" "function parameter"
      return .functionParam (some number) : Scan Node) (do
      let _ ← cvQualifiers
      if ← consume "_" then return .functionParam none
      let number ← unsigned "function parameter"
      expect "_" "function parameter"
      return .functionParam (some number)) :=
    cvQualifiers_alike.bind fun _ => (consume_alike "_").bind fun _ => .ite (fun _ => .pure rfl)
      fun _ => (unsigned_alike _).bind fun _ => (expect_alike "_" _).bind fun _ => .pure rfl
  unfold functionParam
  refine (consume_alike "fL").bind fun _ => .ite (fun _ => ?_) fun _ => ?_
  · exact (unsigned_alike _).bind fun _ => (expect_alike "p" _).bind fun _ => numbered
  · exact (expect_alike "fp" _).bind fun _ => numbered

theorem atEncodingEnd_alike : (Cursor.lockstep front).Alike atEncodingEnd atEncodingEnd :=
  (peekIs_alike isTypeStart 0).bind fun _ => .pure rfl

theorem callOffset_alike (letter : Char) (c : Cursor) :
    (Cursor.lockstep front).Alike (callOffset letter c) (callOffset letter (c.behind front)) := by
  unfold callOffset
  split
  · exact (number_alike _).bind fun _ => (expect_alike "_" _).bind fun _ => .pure rfl
  · exact (number_alike _).bind fun _ => (expect_alike "_" _).bind fun _ =>
      (number_alike _).bind fun _ => (expect_alike "_" _).bind fun _ => .pure rfl
  · exact Cursor.fail_alike (by simp [DemangleError.later])

theorem announcedCallOffset_alike :
    (Cursor.lockstep front).Alike announcedCallOffset announcedCallOffset := by
  unfold announcedCallOffset
  refine Cursor.get_alike.bind ?_
  rintro c d rfl
  exact (next_alike _).bind fun letter => callOffset_alike letter c

theorem callOffsets_alike (kind : SpecialNameKind) :
    (Cursor.lockstep front).Alike (callOffsets kind) (callOffsets kind) := by
  have single : ∀ letter : Char, (Cursor.lockstep front).Alike
      (do return [← callOffset letter (← get)]) (do return [← callOffset letter (← get)]) := by
    intro letter
    refine Cursor.get_alike.bind ?_
    rintro c d rfl
    exact (callOffset_alike letter c).bind fun _ => .pure rfl
  unfold callOffsets
  split
  · exact single 'h'
  · exact single 'v'
  · exact announcedCallOffset_alike.bind fun _ => announcedCallOffset_alike.bind fun _ => .pure rfl
  · exact .pure rfl

end

section
variable {g : Gap}

theorem sizeofPack_alike : g.lockstep.Alike sizeofPack sizeofPack := by
  unfold sizeofPack
  refine (code_alike _).bind fun _ => (lookedAt_alike "T").bind fun _ => .ite (fun _ => ?_)
    fun _ => (lookedAt_alike "fp").bind fun _ => (lookedAt_alike "fL").bind fun _ => .ite
      (fun _ => ?_) fun _ => unexpected_alike _
  · exact templateParam_alike.bind fun _ => .pure rfl
  · exact (scanning_alike functionParam_alike).bind fun _ => .pure rfl

theorem literalOf_alike (c : Cursor) (type : Node) (value : List Char) :
    g.lockstep.Alike (literalOf c type value) (literalOf (c.behind g.front) type value) := by
  unfold literalOf
  split
  · split
    · exact .pure rfl
    · exact token_alike c _ _
  split
  · exact .pure rfl
  · exact .pure rfl
  refine .ite (fun _ => .ite (fun _ => .pure rfl) fun _ => token_alike c _ _) fun _ => ?_
  split
  · exact build_alike _
  · exact token_alike c _ _

theorem cloneSuffix_alike : g.lockstep.Alike cloneSuffix cloneSuffix := by
  unfold cloneSuffix
  refine (itemsUntil_alike ?_ ?_).bind fun _ => .pure rfl
  · refine here_alike.bind ?_
    rintro c d rfl
    exact .pure rfl
  · refine here_alike.bind ?_
    rintro c d rfl
    exact scanning_alike (takeChars_alike _ _)

end

section
variable {g : Gap} {r r' : Rules} (h : r.Alike g r')
include h

theorem expressionsToE_alike : g.lockstep.Alike (expressionsToE r) (expressionsToE r') :=
  itemsToE_alike h.expression

theorem newExpression_alike (globalScope : Bool) :
    g.lockstep.Alike (newExpression r globalScope) (newExpression r' globalScope) := by
  unfold newExpression
  refine (lookedAt_alike "na").bind fun _ => (code_alike _).bind fun _ =>
    (itemsUntil_alike (consumed_alike "_") h.expression).bind fun _ => h.type.bind fun _ =>
      (consumed_alike "pi").bind fun _ => (lookedAt_alike "il").bind fun _ => .ite (fun _ => ?_)
        fun _ => .ite (fun _ => ?_) fun _ => ?_
  · exact (expressionsToE_alike h).map.bind fun _ => .pure rfl
  · exact h.expression.bind fun _ => Simulation.Alike.bind (.pure rfl) fun _ => .pure rfl
  · exact (expected_alike "E" _).bind fun _ => Simulation.Alike.bind (.pure rfl) fun _ => .pure rfl

theorem deleteExpression_alike (globalScope : Bool) :
    g.lockstep.Alike (deleteExpression r globalScope) (deleteExpression r' globalScope) := by
  unfold deleteExpression
  exact (lookedAt_alike "da").bind fun _ => (code_alike _).bind fun _ => h.expression.bind fun _ =>
    .pure rfl

theorem memberExpression_alike (access : MemberAccess) :
    g.lockstep.Alike (memberExpression r access) (memberExpression r' access) := by
  unfold memberExpression
  exact (code_alike _).bind fun _ => h.expression.bind fun _ => (h.unresolvedName false).bind
    fun _ => .pure rfl

theorem operatorExpression_alike (code : Code) :
    g.lockstep.Alike (operatorExpression r code) (operatorExpression r' code) := by
  unfold operatorExpression
  refine here_alike.bind ?_
  rintro c d rfl
  split
  · exact token_alike c _ _
  refine (code_alike _).bind fun _ => ?_
  split
  · exact h.expression.bind fun _ => .pure rfl
  · exact (consumed_alike "_").bind fun _ => .ite (fun _ => h.expression.bind fun _ => .pure rfl)
      fun _ => h.expression.bind fun _ => .pure rfl
  · exact h.expression.bind fun _ => h.expression.bind fun _ => .pure rfl
  · exact h.expression.bind fun _ => h.expression.bind fun _ => .pure rfl
  · exact h.expression.bind fun _ => h.expression.bind fun _ => h.expression.bind fun _ => .pure rfl
  · exact token_alike c _ _

theorem codedExpression_alike (code : Code) :
    g.lockstep.Alike (codedExpression r code) (codedExpression r' code) := by
  have operand : ∀ (production : String) (wrap : Node → Node), g.lockstep.Alike (do
      let _ ← takeCode production
      return wrap (← r.expression)) (do
      let _ ← takeCode production
      return wrap (← r'.expression)) :=
    fun production _ => (code_alike production).bind fun _ => h.expression.bind fun _ => .pure rfl
  unfold codedExpression
  split
  · exact (code_alike _).bind fun _ => h.type.bind fun _ => h.expression.bind fun _ => .pure rfl
  split
  · exact (code_alike _).bind fun _ => h.type.bind fun _ => .pure rfl
  split
  · exact operand _ (.expressionOperatorExpression _)
  split
  · exact scanning_alike functionParam_alike
  · exact scanning_alike functionParam_alike
  · exact (code_alike _).bind fun _ => h.expression.bind fun _ => (expressionsToE_alike h).bind
      fun _ => .pure rfl
  · exact (code_alike _).bind fun _ => h.type.bind fun _ => (consumed_alike "_").bind fun _ => .ite
      (fun _ => (expressionsToE_alike h).bind fun _ => .pure rfl) fun _ =>
      h.expression.bind fun _ =>
        .pure rfl
  · exact (code_alike _).bind fun _ => h.type.bind fun _ => (expressionsToE_alike h).bind fun _ =>
      .pure rfl
  · exact (code_alike _).bind fun _ => (expressionsToE_alike h).bind fun _ => .pure rfl
  · exact newExpression_alike h false
  · exact newExpression_alike h false
  · exact deleteExpression_alike h false
  · exact deleteExpression_alike h false
  · exact sizeofPack_alike
  · exact (code_alike _).bind fun _ => (itemsToE_alike h.templateArg).bind fun _ => .pure rfl
  · exact memberExpression_alike h .dot
  · exact memberExpression_alike h .arrow
  · exact (code_alike _).bind fun _ => h.expression.bind fun _ =>
      h.expression.bind fun _ => .pure rfl
  · exact operand _ .packExpansionExpression
  · exact operand _ fun node => .throwExpression (some node)
  · exact (code_alike _).bind fun _ => .pure rfl
  · exact operatorExpression_alike h code

theorem expression_alike : g.lockstep.Alike (expression r) (expression r') := by
  unfold expression
  refine here_alike.bind ?_
  rintro c d rfl
  rw [behind_rest]
  split
  · exact unexpected_alike _
  · exact h.exprPrimary
  · exact templateParam_alike
  · exact (expected_alike "gs" _).bind fun _ => (lookedAt_alike "nw").bind fun _ =>
      (lookedAt_alike "na").bind fun _ => .ite (fun _ => newExpression_alike h true) fun _ =>
        (lookedAt_alike "dl").bind fun _ => (lookedAt_alike "da").bind fun _ => .ite
          (fun _ => deleteExpression_alike h true) fun _ => h.unresolvedName true
  · exact h.unresolvedName false
  · exact h.unresolvedName false
  · exact h.unresolvedName false
  · refine .ite (fun _ => h.unresolvedName false) fun _ => ?_
    split
    · exact end_alike c _
    · exact codedExpression_alike h _

theorem exprPrimary_alike : g.lockstep.Alike (exprPrimary r) (exprPrimary r') := by
  unfold exprPrimary
  refine (expected_alike "L" _).bind fun _ => (scanning_alike (consumeAny_alike _)).bind fun _ =>
    .ite (fun _ => ?_) fun _ => (scanning_alike (consumeAny_alike _)).bind fun _ => .ite
      (fun _ => .pure rfl) fun _ => h.type.bind fun type => here_alike.bind ?_
  · exact h.encoding.bind fun _ => (expected_alike "E" _).bind fun _ => .pure rfl
  · rintro c d rfl
    exact (scanning_alike (takeUntil_alike _ _)).bind fun value => literalOf_alike c type value

theorem encodingParameters_alike :
    g.lockstep.Alike (encodingParameters r) (encodingParameters r') := by
  unfold encodingParameters
  exact (consumed_alike "v").bind fun _ => .ite (fun _ => .pure rfl) fun _ => h.type.bind fun _ =>
    (itemsUntil_alike (scanning_alike atEncodingEnd_alike) h.type).bind fun _ => .pure rfl

theorem functionEncoding_alike : g.lockstep.Alike (functionEncoding r) (functionEncoding r') := by
  unfold functionEncoding
  refine h.name.bind fun named => (scanning_alike atEncodingEnd_alike).bind fun _ => .ite
    (fun _ => .pure rfl) fun _ => ?_
  have signed : g.lockstep.Alike (do
      let returnType ← if named.traits.spellsReturnType then some <$> r.type else pure none
      let parameters ← encodingParameters r
      return .encoding ⟨named.node, some {
        returnType := returnType
        parameters := parameters
        cv := named.traits.cv
        ref := named.traits.ref }⟩ : Parser Node) (do
      let returnType ← if named.traits.spellsReturnType then some <$> r'.type else pure none
      let parameters ← encodingParameters r'
      return .encoding ⟨named.node, some {
        returnType := returnType
        parameters := parameters
        cv := named.traits.cv
        ref := named.traits.ref }⟩ : Parser Node) := by
    refine .ite (fun _ => ?_) fun _ => ?_
    · exact h.type.map.bind fun _ => (encodingParameters_alike h).bind fun _ => .pure rfl
    · exact Simulation.Alike.bind (.pure rfl) fun _ => (encodingParameters_alike h).bind fun _ =>
        .pure rfl
  refine (lookedAt_alike "Ua9enable_ifI").bind fun _ => .ite (fun _ => ?_) fun _ => signed
  refine here_alike.bind ?_
  rintro c d rfl
  exact Simulation.Alike.bind (extension_alike c _) fun _ => signed

theorem encoding_alike : g.lockstep.Alike (encoding r) (encoding r') := by
  unfold encoding
  exact (peekedIs_alike _ 0).bind fun _ => .ite (fun _ => h.specialName) fun _ =>
    functionEncoding_alike h

theorem specialTarget_alike (kind : SpecialNameKind) :
    g.lockstep.Alike (specialTarget r kind) (specialTarget r' kind) := by
  unfold specialTarget
  split
  all_goals first
    | exact h.type
    | exact h.name.map
    | exact h.templateArg
    | exact h.encoding

theorem specialName_alike : g.lockstep.Alike (specialName r) (specialName r') := by
  have referenceTemporary : g.lockstep.Alike (referenceTemporary r) (referenceTemporary r') := by
    unfold referenceTemporary
    exact h.name.bind fun _ => (consumed_alike "_").bind fun _ => .ite (fun _ => .pure rfl) fun _ =>
      (scanning_alike (seqId_alike _)).bind fun _ => (expected_alike "_" _).bind fun _ => .pure rfl
  have constructionVtable : g.lockstep.Alike (constructionVtable r) (constructionVtable r') := by
    unfold constructionVtable
    exact h.type.bind fun _ => (scanning_alike (number_alike _)).bind fun _ =>
      (expected_alike "_" _).bind fun _ => h.type.bind fun _ => .pure rfl
  unfold specialName
  refine (consumed_alike "GR").bind fun _ => .ite (fun _ => referenceTemporary) fun _ =>
    (consumed_alike "TC").bind fun _ => .ite (fun _ => constructionVtable) fun _ =>
      here_alike.bind ?_
  rintro c d rfl
  rw [behind_rest]
  split
  · exact (scanning_alike (takeChars_alike _ _)).bind fun _ =>
      (scanning_alike (callOffsets_alike _)).bind fun _ => (specialTarget_alike h _).bind fun _ =>
        build_alike _
  · split
    · exact token_alike c _ _
    · exact end_alike c _

theorem mangledName_alike : g.lockstep.Alike (mangledName r) (mangledName r') := by
  unfold mangledName
  exact h.encoding.bind fun _ => cloneSuffix_alike.bind fun _ => build_alike _

theorem wholeSymbol_alike : g.lockstep.Alike (wholeSymbol r) (wholeSymbol r') := by
  unfold wholeSymbol
  exact (mangledName_alike h).bind fun _ => (scanning_alike atEnd_alike).bind fun _ =>
    .guardNot (unexpected_alike _) (.pure rfl)

theorem Rules.next_alike : r.next.Alike g r'.next where
  encoding := nested_alike (encoding_alike h)
  specialName := nested_alike (specialName_alike h)
  name := nested_alike (name_alike h)
  nestedName := nested_alike (nestedName_alike h)
  localName := nested_alike (localName_alike h)
  unqualifiedName := nested_alike (unqualifiedName_alike h)
  templateArgs := nested_alike (templateArgs_alike h)
  templateArg := nested_alike (templateArg_alike h)
  type := nested_alike (type_alike h)
  expression := nested_alike (expression_alike h)
  exprPrimary := nested_alike (exprPrimary_alike h)
  unresolvedName globalScope := nested_alike (unresolvedName_alike h globalScope)

end

section
variable {g : Gap}

theorem limitReached_alike {α : Type} (hcut : g.cut = true) (m : Parser α) :
    g.lockstep.Alike limitReached m :=
  ⟨fun _ _ _ => Simulation.Matches.cutLeft (S := g.lockstep) (Or.inl ⟨hcut,_,rfl,rfl⟩) _⟩

theorem Rules.exhausted_alike (hcut : g.cut = true) (r : Rules) : Rules.exhausted.Alike g r where
  encoding := limitReached_alike hcut _
  specialName := limitReached_alike hcut _
  name := limitReached_alike hcut _
  nestedName := limitReached_alike hcut _
  localName := limitReached_alike hcut _
  unqualifiedName := limitReached_alike hcut _
  templateArgs := limitReached_alike hcut _
  templateArg := limitReached_alike hcut _
  type := limitReached_alike hcut _
  expression := limitReached_alike hcut _
  exprPrimary := limitReached_alike hcut _
  unresolvedName _ := limitReached_alike hcut _

/-- A run that has no more levels than another reads as that does, or is cut off. -/
theorem Rules.levels_alike (hcut : g.cut = true) {n k : Nat} (hn : n ≤ k) :
    (Rules.levels n).Alike g (Rules.levels k) := by
  induction n generalizing k with
  | zero => exact Rules.exhausted_alike hcut _
  | succ n ih =>
    cases k with
    | zero => omega
    | succ k => exact Rules.next_alike (ih (by omega))

theorem limitReached_alike_of_same {α : Type} (hlimit : g.sameLimit = true) :
    g.lockstep.Alike (limitReached : Parser α) limitReached :=
  get_alike.bind fun c d h => fail_alike (by rw [h.recursionLimit hlimit]; rfl)

theorem Rules.exhausted_alike_of_same (hlimit : g.sameLimit = true) :
    Rules.exhausted.Alike g Rules.exhausted where
  encoding := limitReached_alike_of_same hlimit
  specialName := limitReached_alike_of_same hlimit
  name := limitReached_alike_of_same hlimit
  nestedName := limitReached_alike_of_same hlimit
  localName := limitReached_alike_of_same hlimit
  unqualifiedName := limitReached_alike_of_same hlimit
  templateArgs := limitReached_alike_of_same hlimit
  templateArg := limitReached_alike_of_same hlimit
  type := limitReached_alike_of_same hlimit
  expression := limitReached_alike_of_same hlimit
  exprPrimary := limitReached_alike_of_same hlimit
  unresolvedName _ := limitReached_alike_of_same hlimit

theorem Rules.nextTrying_alike {attempt attempt' : Rules → Parser Node} {r r' : Rules}
    (h : r.Alike g r')
    (hattempt : g.onTrial = false → g.lockstep.Alike (attempt r) (attempt' r')) :
    (r.nextTrying attempt).Alike g (r'.nextTrying attempt') :=
  { Rules.next_alike h with
    unresolvedName := fun _ => nested_alike ((scopedNameOver_alike h
      (levelsTrying_alike h hattempt)).bind fun _ => .pure rfl) }

/-- Attempts that run alike make rules that do. -/
theorem Rules.levelsTrying_alike {attempt attempt' : Rules → Parser Node}
    (hlimit : g.sameLimit = true) (hattempt : ∀ r r' : Rules, r.Alike g r' → g.onTrial = false →
      g.lockstep.Alike (attempt r) (attempt' r')) (n : Nat) :
    (Rules.levelsTrying attempt n).Alike g (Rules.levelsTrying attempt' n) := by
  induction n with
  | zero => exact Rules.exhausted_alike_of_same hlimit
  | succ n ih => exact Rules.nextTrying_alike ih (hattempt _ _ ih)

/-- Runs with as many levels left read alike. -/
theorem Rules.levels_alike_of_same (hlimit : g.sameLimit = true) (n : Nat) :
    (Rules.levels n).Alike g (Rules.levels n) := by
  induction n with
  | zero => exact Rules.exhausted_alike_of_same hlimit
  | succ n ih => exact Rules.next_alike ih

end

end MangledNames.Grammar
