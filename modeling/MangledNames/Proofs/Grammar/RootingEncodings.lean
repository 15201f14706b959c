import MangledNames.Proofs.Grammar.RootingNames
set_option autoImplicit false

/-!
Expressions, encodings and complete symbols keep the table closed, with any number of levels of
nesting: they add no entries of their own.
-/

namespace MangledNames.Grammar

open Cursor

theorem sizeofPack_closes : Closing sizeofPack := by
  unfold sizeofPack
  exact .scan fun _ => .scan fun _ =>
      .ite (fun _ => templateParam_closes.bind fun _ => .pure _) fun _ =>
    .scan fun _ => .scan fun _ => .ite (fun _ => .scan fun _ => .pure _) fun _ => .unexpected _

theorem literalOf_closes (start : Cursor) (type : Node) (value : List Char) :
    Closing (literalOf start type value) := by
  unfold literalOf
  split
  · split
    · exact .pure _
    · exact .fail _
  split
  · exact .pure _
  · exact .pure _
  refine .ite (fun _ => .ite (fun _ => .pure _) fun _ => .fail _) fun _ => ?_
  split
  · exact (Closes.build (v := fun _ => True) trivial)
  · exact .fail _

theorem cloneSuffix_closes : Closing cloneSuffix := by
  unfold cloneSuffix
  exact (Closes.itemsUntil (.here fun _ => .pure _) (.here fun _ => .reading)).bind fun _ => .pure _

section
variable {r : Rules} (hr : r.Root)
include hr

theorem newExpression_closes (globalScope : Bool) : Closing (newExpression r globalScope) := by
  unfold newExpression
  exact .scan fun _ => .scan fun _ => (Closes.itemsUntil .reading hr.expression).bind fun _ =>
    hr.type.bind fun _ => .scan fun _ => .scan fun _ =>
    .ite (fun _ => (Closes.itemsToE hr.expression).map.bind fun _ => .pure _) fun _ =>
    .ite (fun _ => hr.expression.bind fun _ => (Closes.pure _).bind fun _ => .pure _) fun _ =>
    .scan fun _ => (Closes.pure _).bind fun _ => .pure _

theorem deleteExpression_closes (globalScope : Bool) :
    Closing (deleteExpression r globalScope) := by
  unfold deleteExpression
  exact .scan fun _ => .scan fun _ => hr.expression.bind fun _ => .pure _

theorem memberExpression_closes (access : MemberAccess) : Closing (memberExpression r access) := by
  unfold memberExpression
  exact .scan fun _ => hr.expression.bind fun _ => (hr.unresolvedName false).bind fun _ => .pure _

theorem operatorExpression_closes (code : Code) : Closing (operatorExpression r code) := by
  unfold operatorExpression
  refine .here fun start => ?_
  split
  · exact .fail _
  refine .scan fun _ => ?_
  split
  · exact hr.expression.bind fun _ => .pure _
  · exact .scan fun _ => .ite (fun _ => hr.expression.bind fun _ => .pure _) fun _ =>
      hr.expression.bind fun _ => .pure _
  · exact hr.expression.bind fun _ => hr.expression.bind fun _ => .pure _
  · exact hr.expression.bind fun _ => hr.expression.bind fun _ => .pure _
  · exact hr.expression.bind fun _ => hr.expression.bind fun _ =>
      hr.expression.bind fun _ => .pure _
  · exact .fail _

theorem codedExpression_closes (code : Code) : Closing (codedExpression r code) := by
  have operand : ∀ {production : String} (wrap : Node → Node), Closing (do
        let _ ← takeCode production
        return wrap (← r.expression) : Parser Node) :=
    fun _ => .scan fun _ => hr.expression.bind fun _ => .pure _
  have listed : ∀ {item : Parser Node} (wrap : List Node → Node), Closing item →
      Closing (do return wrap (← itemsToE item) : Parser Node) :=
    fun _ hitem => (Closes.itemsToE hitem).bind fun _ => .pure _
  unfold codedExpression
  split
  · exact .scan fun _ => hr.type.bind fun _ => hr.expression.bind fun _ => .pure _
  split
  · exact .scan fun _ => hr.type.bind fun _ => .pure _
  split
  · exact operand (.expressionOperatorExpression _)
  split
  · exact .reading
  · exact .reading
  · exact .scan fun _ => hr.expression.bind fun callee =>
      listed (.callExpression callee) hr.expression
  · exact .scan fun _ => hr.type.bind fun type => .scan fun _ =>
      .ite (fun _ => listed (.conversionExpression type) hr.expression) fun _ =>
      hr.expression.bind fun _ => .pure _
  · exact .scan fun _ => hr.type.bind fun type =>
      listed (.initListExpression (some type)) hr.expression
  · exact .scan fun _ => listed (.initListExpression none) hr.expression
  · exact newExpression_closes hr false
  · exact newExpression_closes hr false
  · exact deleteExpression_closes hr false
  · exact deleteExpression_closes hr false
  · exact sizeofPack_closes
  · exact .scan fun _ => listed (fun nodes => .sizeofPackExpression (.templateArgPack nodes))
      hr.templateArg
  · exact memberExpression_closes hr .dot
  · exact memberExpression_closes hr .arrow
  · exact .scan fun _ => hr.expression.bind fun _ => hr.expression.bind fun _ => .pure _
  · exact operand .packExpansionExpression
  · exact operand fun node => .throwExpression (some node)
  · exact .scan fun _ => .pure _
  · exact operatorExpression_closes hr code

theorem expression_closes : Closing (expression r) := by
  unfold expression
  refine .here fun start => ?_
  split
  · exact .unexpected _
  · exact hr.exprPrimary
  · exact templateParam_closes.forget
  · exact .scan fun _ => .scan fun _ => .scan fun _ =>
      .ite (fun _ => newExpression_closes hr true) fun _ => .scan fun _ => .scan fun _ =>
      .ite (fun _ => deleteExpression_closes hr true) fun _ => hr.unresolvedName true
  · exact hr.unresolvedName false
  · exact hr.unresolvedName false
  · exact hr.unresolvedName false
  · refine .ite (fun _ => hr.unresolvedName false) fun _ => ?_
    split
    · exact .fail _
    · exact codedExpression_closes hr _

theorem exprPrimary_closes : Closing (exprPrimary r) := by
  unfold exprPrimary
  exact .scan fun _ => .scan fun _ =>
    .ite (fun _ => hr.encoding.bind fun _ => .scan fun _ => .pure _) fun _ =>
    .scan fun _ => .ite (fun _ => .pure _) fun _ => hr.type.bind fun type => .here fun start =>
    .scan fun value => literalOf_closes start type value

theorem encodingParameters_closes : Closing (encodingParameters r) := by
  unfold encodingParameters
  exact .scan fun _ => .ite (fun _ => .pure _) fun _ => hr.type.bind fun _ =>
    (Closes.itemsUntil .reading hr.type).bind fun _ => .pure _

theorem functionEncoding_closes : Closing (functionEncoding r) := by
  unfold functionEncoding
  refine hr.name.bind fun named => .scan fun _ => .ite (fun _ => .pure _) fun _ => .scan fun _ => ?_
  have signed : ∀ returnType : Option Node, Closing (do
      let parameters ← encodingParameters r
      return .encoding ⟨named.node, some {
        returnType := returnType
        parameters := parameters
        cv := named.traits.cv
        ref := named.traits.ref }⟩ : Parser Node) :=
    fun _ => (encodingParameters_closes hr).bind fun _ => .pure _
  exact .ite (fun _ => .here fun _ => (Closes.fail _).failing) fun _ =>
    .ite (fun _ => hr.type.map.bind signed) fun _ => (Closes.pure _).bind signed

theorem encoding_closes : Closing (encoding r) := by
  unfold encoding
  exact .scan fun _ => .ite (fun _ => hr.specialName) fun _ => functionEncoding_closes hr

theorem specialTarget_closes (kind : SpecialNameKind) : Closing (specialTarget r kind) := by
  unfold specialTarget
  split
  all_goals first
    | exact hr.type.forget
    | exact hr.name.map
    | exact hr.templateArg
    | exact hr.encoding

theorem specialName_closes : Closing (specialName r) := by
  have temporary : Closing (referenceTemporary r) := by
    unfold referenceTemporary
    exact hr.name.bind fun _ => .scan fun _ => .ite (fun _ => .pure _) fun _ =>
      .scan fun _ => .scan fun _ => .pure _
  have vtable : Closing (constructionVtable r) := by
    unfold constructionVtable
    exact hr.type.bind fun _ => .scan fun _ => .scan fun _ => hr.type.bind fun _ => .pure _
  unfold specialName
  refine .scan fun _ => .ite (fun _ => temporary) fun _ => .scan fun _ =>
      .ite (fun _ => vtable) fun _ =>
    .here fun start => ?_
  split
  · exact .scan fun _ => .scan fun _ => (specialTarget_closes hr _).bind fun _ =>
      Closes.build (v := fun _ => True) trivial
  · split
    · exact .fail _
    · exact .fail _

theorem mangledName_closes : Closing (mangledName r) := by
  unfold mangledName
  exact hr.encoding.bind fun _ => cloneSuffix_closes.bind fun _ =>
    Closes.build (v := fun _ => True) trivial

theorem Rules.next_root : r.next.Root where
  encoding := (encoding_closes hr).nested fun _ _ _ _ h => h
  specialName := (specialName_closes hr).nested fun _ _ _ _ h => h
  name := (name_closes hr).nested fun _ _ _ htable h => htable ▸ h
  nestedName := (nestedName_closes hr).nested fun _ _ _ htable h => htable ▸ h
  localName := (localName_closes hr).nested fun _ _ _ htable h => htable ▸ h
  unqualifiedName := (unqualifiedName_closes hr).nested fun _ _ _ _ h => h
  templateArgs := (templateArgs_closes hr).nested fun _ _ _ _ h => h
  templateArg := (templateArg_closes hr).nested fun _ _ _ _ h => h
  type := (type_closes hr).nested fun _ _ _ htable h => htable ▸ h
  expression := (expression_closes hr).nested fun _ _ _ _ h => h
  exprPrimary := (exprPrimary_closes hr).nested fun _ _ _ _ h => h
  unresolvedName globalScope := (unresolvedName_closes hr globalScope).nested fun _ _ _ _ h => h

end

/-- However many levels are left, productions keep the table closed. -/
theorem Rules.levels_root (n : Nat) : (Rules.levels n).Root := by
  induction n with
  | zero =>
    have limited : ∀ {α : Type} {p : Context → α → Prop}, Closes (limitReached : Parser α) p :=
      .get fun _ => .fail _
    exact ⟨limited,limited,limited,limited,limited,limited,limited,limited,limited,limited,limited,
      fun _ => limited⟩
  | succ n ih => exact Rules.next_root ih

end MangledNames.Grammar
