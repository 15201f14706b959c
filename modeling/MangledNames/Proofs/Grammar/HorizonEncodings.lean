import MangledNames.Proofs.Grammar.HorizonNames
set_option autoImplicit false

/-!
Expressions and encodings read the same whatever stands behind the text, and so do all productions
with any number of levels of nesting.
-/

namespace MangledNames.Grammar

open Cursor Horizon

section
variable {v : Outlook} {n : Nat}

theorem sizeofPack_sees : (v.parses n).Sees 2 sizeofPack := by
  unfold sizeofPack
  refine Sees.first (code_sees _) fun _ => lookedAt_sees (k := 2) (by decide)
    (Sees.first templateParam_sees fun _ => done_sees _) ?_ (by decide)
  refine Sees.rest (n := 2)
    (lookedAhead_sees (fun _ => lookedAhead_sees (fun _ => .ite (fun _ => ?_)
    fun _ => unexpected_sees _) (by decide)) (by decide))
  exact Sees.first (scanning_sees functionParam_sees) fun _ => done_sees _

theorem literalOf_sees (start : Cursor) (type : Node) (value : List Char) :
    (v.parses n).Sees 0 (literalOf start type value) := by
  unfold literalOf
  split
  · split
    · exact done_sees _
    · exact fail_sees
  split
  · exact done_sees _
  · exact done_sees _
  refine .ite (fun _ => .ite (fun _ => done_sees _) fun _ => fail_sees) fun _ => ?_
  split
  · exact build_sees _
  · exact fail_sees

end

section
variable {v : Outlook} {n : Nat}

theorem isTypeStart_of_isStop {x : Char} (h : isStop x = true) : isTypeStart x = false := by
  simp only [isStop,Bool.or_eq_true,beq_iff_eq] at h
  rcases h with rfl | rfl <;> decide

/-- Only the text ends where the tail starts with a type. -/
theorem atEncodingEnd_edge (rest : List Char) :
    (!(rest ++ v.tail)[0]?.any isTypeStart) = (!rest[0]?.any isTypeStart) ∨
      v.loose ∧ (!(rest ++ v.tail)[0]?.any isTypeStart) = false ∧ rest = [] := by
  rcases peek_edge (v := v) _ (fun _ => isTypeStart_of_isStop) (Nat.zero_le rest.length) with
    hsame | ⟨hloose,hwide,hlength⟩
  · exact .inl (congrArg _ hsame)
  · exact .inr ⟨hloose,congrArg _ hwide,List.length_eq_zero_iff.mp hlength⟩

theorem atEncodingEnd_sees {α : Type} {ended more : Parser α} (hended : (v.parses n).Sees 0 ended)
    (hmore : (v.parses n).Sees 1 more) :
    (v.parses n).Sees 0 (do if ← atEncodingEnd then ended else more) := by
  refine look_sees (f := fun rest => !(rest[0]?.any isTypeStart)) (fun _ => rfl) (fun atEnd =>
    .of_seesTo (.ite (fun _ => hended) fun _ => Sees.rest hmore)) fun context _ => ?_
  rcases atEncodingEnd_edge (v := v) context.cursor.rest with hsame | ⟨hloose,hwide,hrest⟩
  · exact .inl hsame
  · refine .inr (.inr ⟨hloose,?_⟩)
    change (v.parses n).Moves
      (if (!(context.cursor.rest ++ v.tail)[0]?.any isTypeStart) = true then ended else more)
      fun d _ => context.cursor.rest.length < d
    rw [hwide,hrest]
    exact hmore.moves

end

theorem SpecialNameKind.two_le_code (kind : SpecialNameKind) : 2 ≤ kind.code.length := by
  cases kind <;> decide

/-- The code of a special name is seen in the text, or reading it leads astray. -/
theorem ofText?_edge {v : Outlook} (rest : List Char) :
    SpecialNameKind.ofText? (rest ++ v.tail) = SpecialNameKind.ofText? rest ∨
      v.loose ∧ ∃ kind, SpecialNameKind.ofText? (rest ++ v.tail) = some kind ∧
        rest.length < kind.code.length := by
  unfold SpecialNameKind.ofText?
  have hstop : ∀ kind : SpecialNameKind, kind.code.any isStop = false := by
    intro kind
    cases kind <;> decide
  -- No code has a stop in it, so that one that goes on in the tail goes on in a loose one.
  induction SpecialNameKind.all with
  | nil => exact .inl rfl
  | cons kind kinds ih =>
    rw [List.find?_cons,List.find?_cons]
    rcases prefix_edge (v := v) _ (hstop kind) rest with hsame | ⟨hloose,hwide,hlength⟩
    · rw [hsame]
      cases kind.code.isPrefixOf rest with
      | true => exact .inl rfl
      | false => exact ih
    · rw [hwide]
      exact .inr ⟨hloose,kind,rfl,hlength⟩

def expressionOf (r : Rules) (a b : Char) : Parser Node :=
  if a = 'L' then r.exprPrimary
  else if a = 'T' then templateParam
  else if a = 'g' ∧ b = 's' then do
    expect "gs" "expression"
    if (← lookingAt "nw") || (← lookingAt "na") then newExpression r true
    else if (← lookingAt "dl") || (← lookingAt "da") then deleteExpression r true
    else r.unresolvedName true
  else if a = 's' ∧ b = 'r' ∨ a = 'o' ∧ b = 'n' ∨ a = 'd' ∧ b = 'n' ∨ isDigit a = true then
    r.unresolvedName false
  else codedExpression r (a,b)

section
variable {v : Outlook} {n : Nat} {r : Rules} (h : r.Foresee v n)
include h

theorem expressionsToE_sees : (v.parses n).Sees 1 (expressionsToE r) :=
  itemsToE_sees (Sees.le h.expression (by decide))

theorem newExpression_sees (globalScope : Bool) :
    (v.parses n).Sees 2 (newExpression r globalScope) := by
  unfold newExpression
  refine lookedAhead_sees (fun array => Sees.first (code_sees _) fun _ =>
    Sees.after (itemsUntil_sees (consumed_parses _ (by decide)) (Sees.le h.expression (by decide)))
      fun placement => Sees.after h.type fun type =>
        Sees.after (consumed_parses "pi" (by decide)) fun found => ?_) (by decide)
  cases found with
  | true =>
    exact look_sees (f := fun rest => "il".toList.isPrefixOf rest) (fun _ => rfl)
      (fun _ => .of_seesTo
        (Sees.after (Sees.map (expressionsToE_sees h)) fun _ => done_sees _))
      fun _ _ => .inr (.inl rfl)
  | false =>
    refine lookedAt_sees (k := 2) (by decide) ?_ ?_ (by decide)
    · exact Sees.first h.expression fun _ => Sees.after (done_sees _) fun _ => done_sees _
    · exact Sees.after (literal_sees "E" _) fun _ => Sees.after (done_sees _) fun _ => done_sees _

theorem deleteExpression_sees (globalScope : Bool) :
    (v.parses n).Sees 2 (deleteExpression r globalScope) := by
  unfold deleteExpression
  exact lookedAhead_sees (fun _ => Sees.first (code_sees _) fun _ =>
      Sees.after h.expression fun _ =>
    done_sees _) (by decide)

theorem memberExpression_sees (access : MemberAccess) :
    (v.parses n).Sees 2 (memberExpression r access) := by
  unfold memberExpression
  exact Sees.first (code_sees _) fun _ => Sees.after h.expression fun _ =>
    Sees.after (h.unresolvedName false) fun _ => done_sees _

theorem operatorExpression_sees (code : Code) :
    (v.parses n).Sees 2 (operatorExpression r code) := by
  unfold operatorExpression
  refine here_sees (fun _ => rfl) fun c => ?_
  split
  · exact fail_sees
  refine Sees.first (code_sees _) fun _ => ?_
  split
  · exact Sees.after h.expression fun _ => done_sees _
  · exact Sees.after (consumed_parses _ (by decide)) fun _ => .ite
      (fun _ => Sees.after h.expression fun _ => done_sees _)
      fun _ => Sees.after h.expression fun _ => done_sees _
  · exact Sees.after h.expression fun _ => Sees.after h.expression fun _ => done_sees _
  · exact Sees.after h.expression fun _ => Sees.after h.expression fun _ => done_sees _
  · exact Sees.after h.expression fun _ => Sees.after h.expression fun _ =>
      Sees.after h.expression fun _ => done_sees _
  · exact fail_sees

theorem codedExpression_sees (code : Code) : (v.parses n).Sees 2 (codedExpression r code) := by
  have operand : ∀ (production : String) (wrap : Node → Node), (v.parses n).Sees 2 (do
      let _ ← takeCode production
      return wrap (← r.expression)) := fun production _ =>
    Sees.first (code_sees production) fun _ => Sees.after h.expression fun _ => done_sees _
  unfold codedExpression
  split
  · exact Sees.first (code_sees _) fun _ => Sees.after h.type fun _ =>
        Sees.after h.expression fun _ =>
      done_sees _
  split
  · exact Sees.first (code_sees _) fun _ => Sees.after h.type fun _ => done_sees _
  split
  · exact operand _ (.expressionOperatorExpression _)
  split
  · exact scanning_sees functionParam_sees
  · exact scanning_sees functionParam_sees
  · exact Sees.first (code_sees _) fun _ => Sees.after h.expression fun _ =>
      Sees.after (expressionsToE_sees h) fun _ => done_sees _
  · exact Sees.first (code_sees _) fun _ => Sees.after h.type fun _ =>
      Sees.after (consumed_parses _ (by decide)) fun _ => .ite
        (fun _ => Sees.after (expressionsToE_sees h) fun _ => done_sees _)
        fun _ => Sees.after h.expression fun _ => done_sees _
  · exact Sees.first (code_sees _) fun _ => Sees.after h.type fun _ =>
      Sees.after (expressionsToE_sees h) fun _ => done_sees _
  · exact Sees.first (code_sees _) fun _ => Sees.after (expressionsToE_sees h) fun _ => done_sees _
  · exact newExpression_sees h false
  · exact newExpression_sees h false
  · exact deleteExpression_sees h false
  · exact deleteExpression_sees h false
  · exact sizeofPack_sees
  · exact Sees.first (code_sees _) fun _ => Sees.after (itemsToE_sees h.templateArg) fun _ =>
      done_sees _
  · exact memberExpression_sees h .dot
  · exact memberExpression_sees h .arrow
  · exact Sees.first (code_sees _) fun _ => Sees.after h.expression fun _ =>
      Sees.after h.expression fun _ => done_sees _
  · exact operand _ .packExpansionExpression
  · exact operand _ fun node => .throwExpression (some node)
  · exact Sees.first (code_sees _) fun _ => done_sees _
  · exact operatorExpression_sees h code

omit h in
/-- The first two characters tell which production reads an expression. -/
theorem expression_apply {context : Context} {a b : Char} {rest : List Char}
    (hrest : context.cursor.rest = a :: b :: rest) :
    expression r context = expressionOf r a b context := by
  unfold expression
  refine here_apply ?_
  split <;> rename_i heq <;> cases hrest.symm.trans heq
  · rfl
  · rfl
  · rfl
  · rfl
  · rfl
  · rfl
  · rename_i hL hT hgs hsr hon hdn
    have hgs : ¬(a = 'g' ∧ b = 's') := fun h => hgs rest h.1 (by rw [h.2])
    have hsr : ¬(a = 's' ∧ b = 'r') := fun h => hsr rest h.1 (by rw [h.2])
    have hon : ¬(a = 'o' ∧ b = 'n') := fun h => hon rest h.1 (by rw [h.2])
    have hdn : ¬(a = 'd' ∧ b = 'n') := fun h => hdn rest h.1 (by rw [h.2])
    unfold expressionOf
    rw [if_neg hL,if_neg hT,if_neg hgs]
    simp only [hsr,hon,hdn,false_or]

theorem expressionOf_sees (a b : Char) : (v.parses n).Sees 2 (expressionOf r a b) := by
  unfold expressionOf
  refine .ite (fun _ => h.exprPrimary) fun _ => .ite (fun _ => templateParam_sees) fun _ => .ite
    (fun _ => ?_) fun _ => .ite (fun _ => h.unresolvedName false) fun _ => codedExpression_sees h _
  refine Sees.first (literal_sees "gs" _) fun _ => Sees.rest (n := 2) (lookedAhead_sees (fun _ =>
    lookedAhead_sees (fun _ => .ite (fun _ => newExpression_sees h true) fun _ => lookedAhead_sees
      (fun _ => lookedAhead_sees (fun _ => .ite (fun _ => deleteExpression_sees h true)
        fun _ => h.unresolvedName true) (by decide)) (by decide)) (by decide)) (by decide))

/-- No expression is shorter than what tells it apart. -/
theorem expression_sees : (v.parses n).Sees 2 (expression r) := by
  have gs := expressionOf_sees h 'g' 's'
  refine sees_of_length (m := expression r) (here_moves fun c => ?_)
    fun context hcontext hlength => ?_
  · split
    · exact unexpected_moves _
    · exact h.exprPrimary.moves
    · exact templateParam_sees.moves
    · exact gs.moves
    · exact (h.unresolvedName false).moves
    · exact (h.unresolvedName false).moves
    · exact (h.unresolvedName false).moves
    · split
      · exact (h.unresolvedName false).moves
      · split
        · exact fail_moves
        · exact (codedExpression_sees h _).moves
  · rcases hrest : context.cursor.rest with _ | ⟨a,_ | ⟨b,rest⟩⟩
    · simp [hrest] at hlength
    · simp [hrest] at hlength
    · have hwide : (context.followedBy v.tail).cursor.rest = a :: b :: (rest ++ v.tail) := by
        simp [Context.followedBy,Cursor.followedBy,hrest]
      rw [expression_apply hrest,expression_apply hwide]
      exact (expressionOf_sees h a b).agrees context hcontext trivial

theorem exprPrimary_sees : (v.parses n).Sees 2 (exprPrimary r) := by
  unfold exprPrimary
  refine Sees.andThen (n := 1) (k := 1) (literal_sees "L" _) fun _ =>
    Sees.ifFound (k := 0) (l := 1) (scanning_sees (consumeAny_sees (by decide))) ?_ ?_ (by decide)
  · exact Sees.after h.encoding fun _ => Sees.after (literal_sees "E" _) fun _ => done_sees _
  refine Sees.ifFound (k := 0) (l := 1) (scanning_sees (consumeAny_sees (by decide)))
    (done_sees _) ?_ (by decide)
  exact Sees.first h.type fun type => here_sees (fun _ => rfl) fun c =>
    Sees.after (scanning_sees (takeUntil_sees "E" _ rfl)) fun value => literalOf_sees c type value

theorem encodingParameters_sees : (v.parses n).Sees 1 (encodingParameters r) := by
  unfold encodingParameters
  refine Sees.ifFound (k := 0) (consumed_parses "v" (by decide)) (done_sees _) ?_
    (by decide)
  exact Sees.first h.type fun _ => Sees.after (itemsUntil_sees_of_look
    (f := fun rest => !(rest[0]?.any isTypeStart)) (fun _ => rfl) atEncodingEnd_edge h.type)
      fun _ => done_sees _

theorem functionEncoding_sees : (v.parses n).Sees 2 (functionEncoding r) := by
  unfold functionEncoding
  refine Sees.first h.name fun named => ?_
  have signed : (v.parses n).Sees 1 (do
      let returnType ← if named.traits.spellsReturnType then some <$> r.type else pure none
      let parameters ← encodingParameters r
      return .encoding ⟨named.node, some {
        returnType := returnType
        parameters := parameters
        cv := named.traits.cv
        ref := named.traits.ref }⟩ : Parser Node) := by
    refine .ite (fun _ => ?_) fun _ => ?_
    · exact Sees.after (Sees.map h.type) fun _ => Sees.first (encodingParameters_sees h) fun _ =>
        done_sees _
    · exact Sees.after (done_sees _) fun _ => Sees.first (encodingParameters_sees h) fun _ =>
        done_sees _
  refine atEncodingEnd_sees (done_sees _) (lookedAt_sees (k := 13) (by decide) ?_ ?_ (by decide))
  · exact .ite (fun _ => here_sees (fun _ => rfl) fun _ => Sees.failing fail_sees)
      fun hne => absurd rfl hne
  · exact .ite (fun hne => absurd hne Bool.false_ne_true) fun _ => signed

theorem encoding_sees : (v.parses n).Sees 2 (encoding r) := by
  unfold encoding
  exact peekedAhead_sees (fun _ => .ite (fun _ => h.specialName) fun _ => functionEncoding_sees h)
    (by decide)

theorem specialTarget_sees (kind : SpecialNameKind) :
    (v.parses n).Sees 0 (specialTarget r kind) := by
  unfold specialTarget
  split
  all_goals first
    | exact Sees.rest h.type
    | exact Sees.rest (Sees.map h.name)
    | exact Sees.rest h.templateArg
    | exact Sees.rest h.encoding

theorem referenceTemporary_sees : (v.parses n).Sees 0 (referenceTemporary r) := by
  unfold referenceTemporary
  exact Sees.after h.name fun _ => Sees.after (consumed_parses _ (by decide)) fun _ => .ite
    (fun _ => done_sees _) fun _ => Sees.after (scanning_sees (seqId_sees _)) fun _ =>
      Sees.after (literal_sees "_" _) fun _ => done_sees _

theorem constructionVtable_sees : (v.parses n).Sees 0 (constructionVtable r) := by
  unfold constructionVtable
  exact Sees.after h.type fun _ => Sees.after (scanning_sees (number_sees _)) fun _ =>
    Sees.after (literal_sees "_" _) fun _ => Sees.after h.type fun _ => done_sees _

theorem specialName_sees : (v.parses n).Sees 2 (specialName r) := by
  unfold specialName
  refine Sees.ifFound (k := 0) (consumed_parses "GR" (by decide))
    (referenceTemporary_sees h) ?_ (by decide)
  refine Sees.ifFound (k := 0) (consumed_parses "TC" (by decide))
    (constructionVtable_sees h) ?_ (by decide)
  have coded : ∀ kind : SpecialNameKind, (v.parses n).Sees kind.code.length (do
      let _ ← takeChars kind.code.length "special name"
      let offsets ← callOffsets kind
      build (.specialName kind (← specialTarget r kind) offsets) : Parser Node) := fun kind =>
    Sees.first (scanning_sees (takeChars_sees _ _)) fun _ =>
      Sees.after (scanning_sees (callOffsets_sees _)) fun _ =>
        Sees.after (specialTarget_sees h kind)
        fun _ => build_sees _
  refine here_sees_of (fun c => ?_) fun context hcontext => ?_
  · split
    · rename_i kind _
      exact (Sees.le (coded kind) (SpecialNameKind.two_le_code kind)).moves
    · split
      · exact fail_moves
      · exact fail_moves
  · rw [show (context.cursor.followedBy v.tail).rest = context.cursor.rest ++ v.tail from rfl]
    rcases ofText?_edge (v := v) context.cursor.rest with hsame | ⟨hloose,kind,hwide,hlength⟩
    · rw [hsame]
      cases SpecialNameKind.ofText? context.cursor.rest with
      | some kind => exact (coded kind).agrees context hcontext trivial
      | none =>
        dsimp only
        refine agrees_of_failing ?_ ?_ _ _
        · split
          · exact fail_sees.moves
          · exact fail_sees.moves
        · split
          · exact fail_sees.moves
          · exact fail_sees.moves
    · rw [hwide]
      refine .of_lost hloose (((coded kind).moves _).imp (fun _ _ ht => ?_) fun _ _ _ => trivial)
      exact astray_of_distance (s := context) (Nat.lt_of_lt_of_le hlength ht.2)

theorem Rules.nextTrying_foresee {attempt : Rules → Parser Node}
    (hlevels : (v.parses n).SeesFrom AtLevels (Grammar.levelsTrying attempt r) fun d _ => 1 ≤ d) :
    (r.nextTrying attempt).Foresee v (n + 1) where
  encoding := nested_sees (encoding_sees h)
  specialName := nested_sees (specialName_sees h)
  name := nested_sees (name_sees h)
  nestedName := nested_sees (nestedName_sees h)
  localName := nested_sees (localName_sees h)
  unqualifiedName := nested_sees (unqualifiedName_sees h)
  templateArgs := nested_sees (templateArgs_sees h)
  templateArg := nested_sees (templateArg_sees h)
  type := nested_sees (type_sees h)
  expression := nested_sees (expression_sees h)
  exprPrimary := nested_sees (exprPrimary_sees h)
  unresolvedName _ := nested_sees
    (Sees.first (scopedNameOver_sees h hlevels) fun _ => done_sees _)

end

section
variable {v : Outlook}

theorem limitReached_sees {α : Type} {n : Nat} {post : Nat → α → Prop} :
    (v.parses n).SeesTo (limitReached : Parser α) post :=
  ⟨fun _ => trivial,fun _ _ _ => trivial⟩

/-- What is attempted where levels of qualifiers begin decides whether the tail is foreseen. -/
theorem Rules.levelsTrying_foresee {attempt : Rules → Parser Node}
    (hlevels : ∀ n, (Rules.levelsTrying attempt n).Foresee v n →
      (v.parses n).SeesFrom AtLevels (Grammar.levelsTrying attempt (Rules.levelsTrying attempt n))
        fun d _ => 1 ≤ d) (n : Nat) :
    (Rules.levelsTrying attempt n).Foresee v n := by
  induction n with
  | zero =>
    exact {
      encoding := limitReached_sees
      specialName := limitReached_sees
      name := limitReached_sees
      nestedName := limitReached_sees
      localName := limitReached_sees
      unqualifiedName := limitReached_sees
      templateArgs := limitReached_sees
      templateArg := limitReached_sees
      type := limitReached_sees
      expression := limitReached_sees
      exprPrimary := limitReached_sees
      unresolvedName := fun _ => limitReached_sees }
  | succ n ih => exact Rules.nextTrying_foresee ih (hlevels n ih)

theorem qualifierLevels_moves (n : Nat) :
    (v.parses n).Moves (qualifierLevels (Rules.levels n)) fun d _ => 1 ≤ d :=
  moves_of_advances (qualifierLevels_advances (Rules.levels_advance n).paid)

/-- In a text that spells no levels of qualifiers no trial begins. -/
theorem Rules.levels_foresee (hcalm : ¬SpellsLevels v.text) (n : Nat) :
    (Rules.levels n).Foresee v n := by
  rw [← Rules.levelsTrying_triedLevels n]
  refine Rules.levelsTrying_foresee (fun n _ => ?_) n
  rw [Grammar.levelsTrying_triedLevels,Rules.levelsTrying_triedLevels]
  refine ⟨qualifierLevels_moves n,?_⟩
  rintro context ⟨htext,_,_⟩ ⟨hafter,hdigit⟩
  exact absurd (htext ▸ Cursor.spellsLevels hafter hdigit) hcalm

end

end MangledNames.Grammar
