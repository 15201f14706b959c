import MangledNames.Proofs.Grammar.AdvancingNames
import MangledNames.Proofs.Grammar.SoundEncodings
set_option autoImplicit false

/-!
Expressions, encodings and complete symbols move on, and so do all productions with any number of
levels of nesting.
-/

namespace MangledNames.Grammar

open Cursor

section
variable {levels : Nat}

theorem functionParam_advances : Advances levels 1 (liftM functionParam : Parser Node) :=
  scanning_advances functionParam_runs

theorem sizeofPack_advances : Advances levels 1 sizeofPack := by
  unfold sizeofPack
  refine (code_advances _).first fun _ => (lookedAt_advances "T").first fun _ => .ite (fun _ => ?_)
    fun _ => (lookedAt_advances "fp").first fun _ => (lookedAt_advances "fL").first fun _ => .ite
      (fun _ => ?_) fun _ => unexpected_advances _
  · exact templateParam_advances.rest.first fun _ => done_advances _
  · exact functionParam_advances.rest.first fun _ => done_advances _

theorem literalOf_advances (start : Cursor) (type : Node) (value : List Char) :
    Advances levels 0 (literalOf start type value) := by
  unfold literalOf
  split
  · split
    · exact done_advances _
    · exact fail_advances rfl
  split
  · exact done_advances _
  · exact done_advances _
  refine .ite (fun _ => .ite (fun _ => done_advances _) fun _ => fail_advances rfl) fun _ => ?_
  split
  · exact build_advances _
  · exact fail_advances rfl

theorem atEncodingEnd_advances : Advances levels 0 (liftM atEncodingEnd : Parser Bool) :=
  scanning_advances (p := fun _ => True) ((peekIs_runs isTypeStart 0).first fun _ _ =>
    Runs.pure trivial)

/-- A mark that comes next is not empty. -/
theorem cloneSuffix_advances : Advances levels 0 cloneSuffix := by
  unfold cloneSuffix
  refine AdvancesFrom.first (repeatRound_advances fun marks => ⟨fun context _ => ?_⟩) fun marks =>
    done_advances _
  let item : Parser (List Char) := do
    takeChars (cloneMark (← here).rest).length "clone suffix"
  change Ends _ _ ((if (cloneMark context.cursor.rest).isEmpty = true
    then pure (.done marks.reverse)
    else item >>= fun mark => pure (.again (mark :: marks)) :
      Parser (Round (List (List Char)) (List (List Char)))) context)
  cases hempty : (cloneMark context.cursor.rest).isEmpty with
  | true => exact ⟨.refl context,trivial⟩
  | false =>
    have hlength : 1 ≤ (cloneMark context.cursor.rest).length := by
      cases hmark : cloneMark context.cursor.rest with
      | nil => simp [hmark] at hempty
      | cons => simp
    have hround : AdvancesTo levels (do
        let mark ← takeChars (cloneMark context.cursor.rest).length "clone suffix"
        return .again (mark :: marks) : Parser (Round (List (List Char)) (List (List Char))))
        RoundMoves :=
      AdvancesFrom.bind (scanning_advances ((takeChars_runs _ _).le hlength)) fun _ _ hd =>
        AdvancesFrom.pure hd
    exact hround.ends context trivial

end

section
variable {levels : Nat} {r : Rules} (hr : r.Advance fun _ => levels)
include hr

theorem expressionsToE_advances : Advances levels 0 (expressionsToE r) :=
  itemsToE_advances hr.expression

theorem newExpression_advances (globalScope : Bool) :
    Advances (levels + 4) 1 (newExpression r globalScope) := by
  unfold newExpression
  refine (lookedAt_advances "na").andThen fun array => (code_advances _).pays fun _ =>
    (itemsUntil_advances (consumed_advances "_") hr.expression).first fun placement =>
      hr.type.rest.first fun type => (consumed_advances "pi").first fun _ =>
        (lookedAt_advances "il").first fun _ => .ite (fun _ => ?_) fun _ => .ite (fun _ => ?_)
          fun _ => ?_
  · exact (expressionsToE_advances hr).map.first fun _ => done_advances _
  · exact hr.expression.rest.first fun _ => (done_advances _).first fun _ => done_advances _
  · exact (literal_advances "E" _).first fun _ => (done_advances none).first fun _ =>
      done_advances _

theorem deleteExpression_advances (globalScope : Bool) :
    Advances (levels + 4) 1 (deleteExpression r globalScope) := by
  unfold deleteExpression
  exact (lookedAt_advances "da").andThen fun _ => (code_advances _).pays fun _ =>
    hr.expression.rest.first fun _ => done_advances _

theorem memberExpression_advances (access : MemberAccess) :
    Advances (levels + 4) 1 (memberExpression r access) := by
  unfold memberExpression
  exact (code_advances _).pays fun _ => hr.expression.rest.first fun _ =>
    (hr.unresolvedName false).rest.first fun _ => done_advances _

theorem operatorExpression_advances (code : Code) :
    Advances (levels + 4) 1 (operatorExpression r code) := by
  have operand : ∀ wrap : Node → Node, Advances levels 0 (do
      return wrap (← r.expression) : Parser Node) :=
    fun _ => hr.expression.rest.first fun _ => done_advances _
  unfold operatorExpression
  refine here_advances.andThen fun start => ?_
  split
  · exact fail_advances rfl
  rename_i operator _
  refine (code_advances _).pays fun _ => ?_
  split
  · exact operand (.unaryExpression operator · false)
  · exact (consumed_advances "_").first fun _ => .ite
      (fun _ => operand (.unaryExpression operator · false))
      fun _ => operand (.unaryExpression operator · true)
  · exact hr.expression.rest.first fun left => operand (.binaryExpression operator left)
  · exact hr.expression.rest.first fun left => operand (.binaryExpression operator left)
  · exact hr.expression.rest.first fun condition => hr.expression.rest.first fun whenTrue =>
      operand (.conditionalExpression condition whenTrue)
  · exact fail_advances rfl

theorem codedExpression_advances (code : Code) :
    Advances (levels + 4) 1 (codedExpression r code) := by
  have operand : ∀ (production : String) (wrap : Node → Node), Advances (levels + 4) 1 (do
      let _ ← takeCode production
      return wrap (← r.expression) : Parser Node) :=
    fun _ _ => (code_advances _).pays fun _ => hr.expression.rest.first fun _ => done_advances _
  unfold codedExpression
  split
  · exact (code_advances _).pays fun _ => hr.type.rest.first fun _ => hr.expression.rest.first
      fun _ => done_advances _
  split
  · exact (code_advances _).pays fun _ => hr.type.rest.first fun _ => done_advances _
  split
  · exact operand _ (.expressionOperatorExpression _)
  split
  · exact functionParam_advances
  · exact functionParam_advances
  · exact (code_advances _).pays fun _ => hr.expression.rest.first fun _ =>
      (expressionsToE_advances hr).first fun _ => done_advances _
  · exact (code_advances _).pays fun _ => hr.type.rest.first fun _ =>
      (consumed_advances "_").first fun _ => .ite
        (fun _ => (expressionsToE_advances hr).first fun _ => done_advances _)
        fun _ => hr.expression.rest.first fun _ => done_advances _
  · exact (code_advances _).pays fun _ => hr.type.rest.first fun _ =>
      (expressionsToE_advances hr).first fun _ => done_advances _
  · exact (code_advances _).pays fun _ => (expressionsToE_advances hr).first fun _ =>
      done_advances _
  · exact newExpression_advances hr false
  · exact newExpression_advances hr false
  · exact deleteExpression_advances hr false
  · exact deleteExpression_advances hr false
  · exact sizeofPack_advances
  · exact (code_advances _).pays fun _ => (itemsToE_advances hr.templateArg).first fun _ =>
      done_advances _
  · exact memberExpression_advances hr .dot
  · exact memberExpression_advances hr .arrow
  · exact (code_advances _).pays fun _ => hr.expression.rest.first fun _ =>
      hr.expression.rest.first fun _ => done_advances _
  · exact operand _ .packExpansionExpression
  · exact operand _ fun node => .throwExpression (some node)
  · exact (code_advances _).first fun _ => done_advances _
  · exact operatorExpression_advances hr code

theorem exprPrimary_advances : Advances (levels + 4) 1 (exprPrimary r) := by
  unfold exprPrimary
  refine (letter_advances "L" _ (by decide)).pays fun _ =>
    (scanning_advances (consumeAny_runs _)).first fun _ => .ite (fun _ => ?_) fun _ =>
      (scanning_advances (consumeAny_runs _)).first fun _ => .ite (fun _ => done_advances _)
        fun _ => ?_
  · exact hr.encoding.rest.first fun _ => (literal_advances "E" _).first fun _ => done_advances _
  · exact hr.type.rest.first fun type => here_advances.first fun start =>
      (scanning_advances (takeUntil_runs _ _)).first fun value =>
        literalOf_advances start type value

theorem encodingParameters_advances : Advances levels 0 (encodingParameters r) := by
  unfold encodingParameters
  refine (consumed_advances "v").first fun _ => .ite (fun _ => done_advances _) fun _ => ?_
  exact hr.type.rest.first fun _ => (itemsUntil_advances atEncodingEnd_advances hr.type).first
    fun _ => done_advances _

theorem specialTarget_advances (kind : SpecialNameKind) :
    Advances levels 1 (specialTarget r kind) := by
  unfold specialTarget
  split
  all_goals first
    | exact hr.type
    | exact hr.name.map
    | exact hr.templateArg
    | exact hr.encoding

theorem referenceTemporary_advances : Advances levels 0 (referenceTemporary r) := by
  unfold referenceTemporary
  exact hr.name.rest.first fun _ => (consumed_advances "_").first fun _ => .ite
    (fun _ => done_advances _) fun _ => (seqId_advances _).first fun _ =>
      (literal_advances "_" _).first fun _ => done_advances _

theorem constructionVtable_advances : Advances levels 0 (constructionVtable r) := by
  unfold constructionVtable
  exact hr.type.rest.first fun _ => (scanning_advances (number_runs _).rest).first fun _ =>
    (literal_advances "_" _).first fun _ => hr.type.rest.first fun _ => done_advances _

omit hr in
theorem SpecialNameKind.one_le_code (kind : SpecialNameKind) : 1 ≤ kind.code.length := by
  cases kind <;> decide

theorem specialName_advances : Advances (levels + 4) 1 (specialName r) := by
  unfold specialName
  refine consumed_else_advances (by decide) (referenceTemporary_advances hr) (consumed_else_advances
    (by decide) (constructionVtable_advances hr) (here_advances.andThen fun start => ?_))
  split
  · rename_i kind _
    exact (scanning_advances ((takeChars_runs _ _).le (SpecialNameKind.one_le_code kind))).pays
        fun _ =>
      (scanning_advances (callOffsets_runs kind)).first fun offsets =>
        (specialTarget_advances hr kind).rest.first fun _ => build_advances _
  · split
    · exact fail_advances rfl
    · exact fail_advances rfl

end

section
variable {levels : Nat} {r : Rules} (hr : r.Advance (levels - ·))
include hr

theorem expression_advances : Advances (levels + 1 - 1) 1 (expression r) := by
  unfold expression
  refine here_advances.andThen fun start => ?_
  split
  · exact unexpected_advances _
  · exact hr.exprPrimary
  · exact templateParam_advances
  · refine .of_paid ((letter_advances "gs" _ (by decide)).pays fun _ =>
      (lookedAt_advances "nw").first fun _ => (lookedAt_advances "na").first fun _ => .ite
        (fun _ => ?_) fun _ => (lookedAt_advances "dl").first fun _ =>
          (lookedAt_advances "da").first fun _ => .ite (fun _ => ?_) fun _ => ?_)
    · exact (newExpression_advances hr.paid true).rest.lower (Nat.le_add_right _ 4)
    · exact (deleteExpression_advances hr.paid true).rest.lower (Nat.le_add_right _ 4)
    · exact (hr.paid.unresolvedName true).rest
  · exact hr.unresolvedName false
  · exact hr.unresolvedName false
  · exact hr.unresolvedName false
  · refine .ite (fun _ => hr.unresolvedName false) fun _ => ?_
    split
    · exact fail_advances rfl
    · exact .of_paid (codedExpression_advances hr.paid _)

theorem functionEncoding_advances : Advances (levels + 1 - 2) 1 (functionEncoding r) := by
  unfold functionEncoding
  refine hr.name.covers (show levels - 1 ≤ levels - 3 + 4 by omega) fun named =>
    atEncodingEnd_advances.first fun _ => .ite (fun _ => done_advances _) fun _ => ?_
  have signed : ∀ returnType : Option Node, Advances (levels - 3) 0 (do
      let parameters ← encodingParameters r
      return .encoding ⟨named.node, some {
        returnType := returnType
        parameters := parameters
        cv := named.traits.cv
        ref := named.traits.ref }⟩ : Parser Node) :=
    fun _ => (encodingParameters_advances hr.paid).first fun _ => done_advances _
  refine (lookedAt_advances "Ua9enable_ifI").first fun _ => .ite (fun _ => here_advances.first
    fun _ => (fail_advances rfl).failing) fun _ => .ite (fun _ => ?_) fun _ => ?_
  · exact hr.paid.type.rest.map.first signed
  · exact (done_advances none).first signed

theorem encoding_advances : Advances (levels + 1 - 2) 1 (encoding r) := by
  unfold encoding
  exact (peeked_advances _ 0).andThen fun _ => .ite (fun _ => hr.specialName.lower (by omega))
    fun _ => functionEncoding_advances hr

theorem mangledName_advances : Advances (levels - 2) 1 (mangledName r) := by
  unfold mangledName
  exact hr.encoding.first fun encoding => cloneSuffix_advances.first fun _ => build_advances _

theorem Rules.next_advance : r.next.Advance (levels + 1 - ·) where
  encoding := nested_advances (encoding_advances hr)
  specialName := nested_advances (.of_paid (specialName_advances hr.paid))
  name := nested_advances (name_advances hr)
  nestedName := nested_advances (.of_paid (nestedName_advances hr.paid))
  localName := nested_advances (.of_paid (localName_advances hr.paid))
  unqualifiedName := nested_advances (.of_paid (unqualifiedName_advances hr.paid))
  templateArgs := nested_advances (.of_paid (templateArgs_advances hr.paid))
  templateArg := nested_advances (templateArg_advances hr)
  type := nested_advances (type_advances hr)
  expression := nested_advances (expression_advances hr)
  exprPrimary := nested_advances (.of_paid (exprPrimary_advances hr.paid))
  unresolvedName globalScope :=
    nested_advances (.of_paid (unresolvedName_advances hr.paid globalScope))

end

theorem limitReached_advances {α : Type} {n rank : Nat} :
    Advances (0 - rank) n (limitReached : Parser α) :=
  ⟨fun context _ => ⟨.refl context,by omega,by simp⟩⟩

theorem Rules.exhausted_advance : Rules.exhausted.Advance (0 - ·) where
  encoding := limitReached_advances
  specialName := limitReached_advances
  name := limitReached_advances
  nestedName := limitReached_advances
  localName := limitReached_advances
  unqualifiedName := limitReached_advances
  templateArgs := limitReached_advances
  templateArg := limitReached_advances
  type := limitReached_advances
  expression := limitReached_advances
  exprPrimary := limitReached_advances
  unresolvedName _ := limitReached_advances

/-- The levels that are left are the levels that can be used up. -/
theorem Rules.levels_advance (n : Nat) : (Rules.levels n).Advance (n - ·) := by
  induction n with
  | zero => exact Rules.exhausted_advance
  | succ n ih => exact Rules.next_advance ih

end MangledNames.Grammar
