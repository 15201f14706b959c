import MangledNames.Proofs.Grammar.CollectingNames
set_option autoImplicit false

/-!
Expressions, encodings and complete symbols collect nodes whose digits and suffixes have
no marks, with any number of levels of nesting: the values of literals are checked
before they become part of a node.
-/

namespace MangledNames.Grammar

open Cursor Node Printing

theorem unmarked_ofClass {ofClass : Char → Bool} {text : List Char} (h : text.all ofClass = true)
    (hnone : ['(','[','\x7b',')',']','\x7d','<','>',','].any ofClass = false) :
    Unmarked text := fun c hc =>
  not_isMark_of_class (List.all_eq_true.mp h c hc) hnone

theorem unmarked_integerValue {value digits : List Char} (h : integerValue? value = some digits) :
    Unmarked digits := by
  unfold integerValue? at h
  split at h
  · split at h
    · rename_i hdigits
      cases h
      exact unmarked_cons rfl (unmarked_ofClass (Bool.and_eq_true _ _ ▸ hdigits).2 (by decide))
    · cases h
  · split at h
    · rename_i hdigits
      cases h
      exact unmarked_ofClass (Bool.and_eq_true _ _ ▸ hdigits).2 (by decide)
    · cases h

theorem unmarked_floatValue {value : List Char} (h : isFloatValue value = true) :
    Unmarked (value.map Char.toLower) := by
  have hfirst : Unmarked (value.takeWhile HexFloat.isDigit) :=
    unmarked_ofClass List.all_takeWhile (by decide)
  have hvalue : Unmarked value := by
    rw [← List.prefix_iff_eq_append.mp (List.takeWhile_prefix HexFloat.isDigit (l := value))]
    refine fun c hc => (List.mem_append.mp hc).elim (hfirst c) fun hc => ?_
    have hsecond := (Bool.and_eq_true _ _ ▸ h).2
    split at hsecond
    · rename_i hdrop
      rw [hdrop] at hc
      cases hc
    · rename_i second hdrop
      rw [hdrop] at hc
      exact unmarked_cons rfl (unmarked_ofClass (Bool.and_eq_true _ _ ▸ hsecond).2 (by decide)) c hc
    · cases hsecond
  intro c hc
  obtain ⟨x,hx,rfl⟩ := List.mem_map.mp hc
  exact (not_isMark_otherCase (hvalue x hx)).2

theorem unmarked_cloneMark (rest : List Char) : Unmarked (cloneMark rest) := by
  unfold cloneMark
  split
  · rename_i c rest
    split
    · rename_i hc
      have hword : isMark c = false :=
        (Bool.or_eq_true _ _ ▸ hc).elim (not_isMark_of_class · (by decide)) fun hc =>
          beq_iff_eq.mp hc ▸ rfl
      exact unmarked_cons rfl
        (unmarked_cons hword (unmarked_ofClass List.all_takeWhile (by decide)))
    · split
      · rename_i hc
        exact unmarked_cons rfl (unmarked_cons (not_isMark_of_class hc (by decide))
          (unmarked_ofClass List.all_takeWhile (by decide)))
      · exact nofun
  · exact nofun

theorem cloneMark_begins_rest (rest : List Char) : cloneMark rest <+: rest := by
  have mark : ∀ (c : Char) (rest : List Char) (ofClass : Char → Bool),
      '.' :: c :: rest.takeWhile ofClass <+: '.' :: c :: rest := fun c rest ofClass => by
    simpa [List.cons_prefix_cons] using List.takeWhile_prefix ofClass
  unfold cloneMark
  split
  · split
    · exact mark _ _ _
    · split
      · exact mark _ _ _
      · exact List.nil_prefix
  · exact List.nil_prefix

theorem cloneSuffix_collects :
    Collects cloneSuffix fun suffix => ∀ text ∈ suffix, Unmarked text.toList := by
  have mark : Collects (do
      takeChars (cloneMark (← here).rest).length "clone suffix" : Parser (List Char)) Unmarked := by
    refine ⟨fun context hc => ?_⟩
    have htaken :=
      takeChars_ends (cloneMark context.cursor.rest).length "clone suffix" context.cursor
    change Ends _ _
      (scanning (takeChars (cloneMark context.cursor.rest).length "clone suffix") context)
    unfold scanning
    cases hread : takeChars (cloneMark context.cursor.rest).length "clone suffix"
      context.cursor with
    | ok found cursor =>
      rw [hread] at htaken
      obtain ⟨hlength,_,hrest⟩ := htaken
      have hfound : found = cloneMark context.cursor.rest := by
        have htake := List.prefix_iff_eq_take.mp (cloneMark_begins_rest context.cursor.rest)
        rw [htake,← hlength,hrest,List.take_left]
      exact ⟨hc,hfound ▸ unmarked_cloneMark _⟩
    | error fault cursor => exact hc
  unfold cloneSuffix
  refine (Collects.itemsUntil (.here fun _ => .pure trivial) mark).bind fun marks hmarks => .pure ?_
  split
  · exact nofun
  · rintro _ ⟨⟩ c hc
    rw [String.toList_ofList,List.mem_flatten] at hc
    obtain ⟨mark,hmark,hc⟩ := hc
    exact hmarks mark hmark c hc

theorem functionParam_collects : Collects (liftM functionParam) Node.Plain := by
  have after : ∀ {α β : Type} {first : Scan α} {q : α → Scan β} {p : β → Prop},
      (∀ a c b t, q a c = .ok b t → p b) → ∀ c b t, (first >>= q) c = .ok b t → p b := by
    intro α β first q p hq c b t h
    obtain ⟨a,c',_,hlast⟩ := bind_ok h
    exact hq a c' b t hlast
  have param : ∀ (number : Option Nat) (c : Cursor) (node : Node) (t : Cursor),
      (pure (.functionParam number) : Scan Node) c = .ok node t → node.Plain := by
    rintro number c _ t ⟨⟩
    exact .of_children trivial nofun
  have numbered : ∀ (c : Cursor) (node : Node) (t : Cursor), (do
      let _ ← cvQualifiers
      if ← consume "_" then return .functionParam none
      let number ← unsigned "function parameter"
      expect "_" "function parameter"
      return .functionParam (some number) : Scan Node) c = .ok node t → node.Plain := by
    refine after fun _ => after fun found c node t h => ?_
    cases found with
    | true => exact param none c node t h
    | false => exact after (fun number => after fun _ => param (some number)) c node t h
  refine .ofScan (after fun found c node t h => ?_)
  cases found with
  | true => exact after (fun _ => after fun _ => numbered) c node t h
  | false => exact after (fun _ => numbered) c node t h

section
variable {r : Rules} (hr : r.Collect)
include hr

theorem newExpression_collects (globalScope : Bool) :
    Collects (newExpression r globalScope) Node.Plain := by
  unfold newExpression
  refine .scan fun array => .scan fun _ =>
    (Collects.itemsUntil (.ofScan fun _ _ _ _ => trivial) hr.expression).bind
    fun placement hplacement => hr.type.bind fun type htype => ?_
  have complete :
    ∀ initializer : Option (List Node), (∀ node ∈ initializer.getD [], node.Plain) → Collects
      (pure (.newExpression placement type initializer array globalScope) : Parser Node)
      Node.Plain := by
    refine fun initializer h => .pure (.of_children trivial ?_)
    simpa [children,fields,or_imp,forall_and] using ⟨hplacement,htype,h⟩
  refine .scan fun _ => .scan fun _ => .ite (fun _ => ?_) fun _ =>
    .ite (fun _ => ?_) fun _ => .scan fun _ => ?_
  · exact ((Collects.itemsToE hr.expression).map (f := some)
      (g := fun found => ∀ node ∈ found.getD [], node.Plain) fun _ h => h).bind complete
  · exact hr.expression.bind fun e he => (Collects.pure
      (p := fun found => ∀ node ∈ found.getD [], node.Plain)
      (by simpa using he)).bind complete
  · exact (Collects.pure (p := fun found => ∀ node ∈ found.getD [], node.Plain)
      (List.forall_mem_nil _)).bind complete

theorem deleteExpression_collects (globalScope : Bool) :
    Collects (deleteExpression r globalScope) Node.Plain := by
  unfold deleteExpression
  exact .scan fun array => .scan fun _ => hr.expression.bind fun _ h =>
    .pure (.single trivial rfl h)

omit hr in
theorem sizeofPack_collects : Collects sizeofPack Node.Plain := by
  unfold sizeofPack
  refine .scan fun _ => .scan fun _ => .ite (fun _ => ?_) fun _ => .scan fun _ => .scan fun _ =>
    .ite (fun _ => ?_) fun _ => .unexpected _
  · exact templateParam_collects.bind fun _ h => .pure (.single trivial rfl h)
  · exact functionParam_collects.bind fun _ h => .pure (.single trivial rfl h)

theorem memberExpression_collects (access : MemberAccess) :
    Collects (memberExpression r access) Node.Plain := by
  unfold memberExpression
  exact .scan fun _ => hr.expression.bind fun _ hobject =>
      (hr.unresolvedName false).bind fun _ hmember =>
    .pure (.pair trivial rfl hobject hmember)

theorem operatorExpression_collects (code : Code) :
    Collects (operatorExpression r code) Node.Plain := by
  unfold operatorExpression
  refine .here fun start => ?_
  split
  · exact .fail _
  refine .scan fun _ => ?_
  have unary : ∀ {operator : Operator} (afterOperand : Bool),
      operator.kind = .prefixOp ∨ operator.kind = .postfixOp → Collects (do
        return .unaryExpression operator (← r.expression) afterOperand : Parser Node) Node.Plain :=
    fun _ hkind => hr.expression.bind fun _ h => .pure (.single hkind rfl h)
  have binary : ∀ {operator : Operator}, Collects (do
      let left ← r.expression
      return .binaryExpression operator left (← r.expression) : Parser Node) Node.Plain :=
    hr.expression.bind fun _ hleft => hr.expression.bind fun _ hright =>
      .pure (.pair trivial rfl hleft hright)
  split
  · rename_i hkind
    exact unary false (.inl hkind)
  · rename_i hkind
    exact .scan fun _ => .ite (fun _ => unary false (.inr hkind)) fun _ => unary true (.inr hkind)
  · exact binary
  · exact binary
  · refine hr.expression.bind fun _ h => hr.expression.bind fun _ htrue =>
      hr.expression.bind fun _ hfalse =>
      .pure (.of_children trivial ?_)
    simpa [children,fields] using ⟨h,htrue,hfalse⟩
  · exact .fail _

theorem codedExpression_collects (code : Code) : Collects (codedExpression r code) Node.Plain := by
  have operand :
    ∀ {production : String} (wrap : Node → Node), (∀ node, node.Plain → (wrap node).Plain) →
      Collects (do
        let _ ← takeCode production
        return wrap (← r.expression) : Parser Node) Node.Plain :=
    fun wrap hwrap => .scan fun _ => hr.expression.bind fun node h => .pure (hwrap node h)
  have listed : ∀ {item : Parser Node} (wrap : List Node → Node), Collects item Node.Plain →
      (∀ nodes, (∀ node ∈ nodes, node.Plain) → (wrap nodes).Plain) →
      Collects (do return wrap (← itemsToE item) : Parser Node) Node.Plain :=
    fun wrap hitem hwrap => (Collects.itemsToE hitem).bind fun nodes h => .pure (hwrap nodes h)
  unfold codedExpression
  split
  · exact .scan fun _ => hr.type.bind fun _ htype => hr.expression.bind fun _ h =>
      .pure (.pair trivial rfl htype h)
  split
  · exact .scan fun _ => hr.type.bind fun _ h => .pure (.single trivial rfl h)
  split
  · exact operand (.expressionOperatorExpression _) fun _ h => .single trivial rfl h
  split
  · exact functionParam_collects
  · exact functionParam_collects
  · exact .scan fun _ => hr.expression.bind fun callee h =>
      listed (.callExpression callee) hr.expression
      fun _ hnodes => .of_children trivial (by simpa [children,fields] using ⟨h,hnodes⟩)
  · refine .scan fun _ => hr.type.bind fun type h => .scan fun _ => .ite (fun _ => ?_) fun _ => ?_
    · exact listed (.conversionExpression type) hr.expression
        fun _ hnodes => .of_children trivial (by simpa [children,fields] using ⟨h,hnodes⟩)
    · exact hr.expression.bind fun _ hnode => .pure (.pair trivial rfl h hnode)
  · exact .scan fun _ => hr.type.bind fun type h =>
      listed (.initListExpression (some type)) hr.expression
      fun _ hnodes => .of_children trivial (by simpa [children,fields] using ⟨h,hnodes⟩)
  · exact .scan fun _ => listed (.initListExpression none) hr.expression
      fun _ hnodes => .of_children trivial (by simpa [children,fields] using hnodes)
  · exact newExpression_collects hr false
  · exact newExpression_collects hr false
  · exact deleteExpression_collects hr false
  · exact deleteExpression_collects hr false
  · exact sizeofPack_collects
  · exact .scan fun _ => listed (fun nodes => .sizeofPackExpression (.templateArgPack nodes))
      hr.templateArg
      fun _ hnodes =>
        .single trivial rfl (.of_children trivial (by simpa [children,fields] using hnodes))
  · exact memberExpression_collects hr .dot
  · exact memberExpression_collects hr .arrow
  · exact .scan fun _ => hr.expression.bind fun _ hobject => hr.expression.bind fun _ hmember =>
      .pure (.pair trivial rfl hobject hmember)
  · exact operand .packExpansionExpression fun _ h => .single trivial rfl h
  · exact operand (fun node => .throwExpression (some node)) fun _ h => .single trivial rfl h
  · exact .scan fun _ => .pure (.of_children trivial (List.forall_mem_nil _))
  · exact operatorExpression_collects hr code

theorem expression_collects : Collects (expression r) Node.Plain := by
  unfold expression
  refine .here fun start => ?_
  split
  · exact .unexpected _
  · exact hr.exprPrimary
  · exact templateParam_collects
  · exact .scan fun _ => .scan fun _ => .scan fun _ =>
      .ite (fun _ => newExpression_collects hr true) fun _ =>
      .scan fun _ => .scan fun _ =>
      .ite (fun _ => deleteExpression_collects hr true) fun _ => hr.unresolvedName true
  · exact hr.unresolvedName false
  · exact hr.unresolvedName false
  · exact hr.unresolvedName false
  · refine .ite (fun _ => hr.unresolvedName false) fun _ => ?_
    split
    · exact .fail _
    · exact codedExpression_collects hr _

omit hr in
theorem literalOf_collects (start : Cursor) {type : Node} (h : type.Plain) (value : List Char) :
    Collects (literalOf start type value) Node.Plain := by
  unfold literalOf
  split
  · split
    · exact .pure (.single trivial rfl h)
    · exact .fail _
  split
  · exact .pure (.of_children trivial (List.forall_mem_nil _))
  · exact .pure (.of_children trivial (List.forall_mem_nil _))
  split
  · refine .ite (fun hvalue => .pure (.single ?_ rfl h)) fun _ => .fail _
    simpa [AsRead] using unmarked_floatValue hvalue
  split
  · rename_i hdigits
    refine .build (.single ?_ rfl h)
    simpa [AsRead] using unmarked_integerValue hdigits
  · exact .fail _

theorem exprPrimary_collects : Collects (exprPrimary r) Node.Plain := by
  unfold exprPrimary
  refine .scan fun _ => .scan fun _ => .ite (fun _ => ?_) fun _ =>
    .scan fun _ => .ite (fun _ => ?_) fun _ => ?_
  · exact hr.encoding.bind fun _ h => .scan fun _ => .pure (.single trivial rfl h)
  · exact .pure (.of_children trivial nofun)
  · exact hr.type.bind fun type h => .here fun start => .scan fun value =>
      literalOf_collects start h value

theorem encodingParameters_collects :
    Collects (encodingParameters r) fun nodes => ∀ node ∈ nodes, node.Plain := by
  unfold encodingParameters
  refine .scan fun _ => .ite (fun _ => .pure nofun) fun _ => hr.type.bind fun first hfirst => ?_
  exact (Collects.itemsUntil (.ofScan fun _ _ _ _ => trivial) hr.type).bind fun others hothers =>
    .pure (List.forall_mem_cons.mpr ⟨hfirst,hothers⟩)

theorem functionEncoding_collects : Collects (functionEncoding r) Node.Plain := by
  unfold functionEncoding
  refine hr.name.bind fun named hname => .scan fun _ =>
    .ite (fun _ => .pure (.single trivial rfl hname)) fun _ => ?_
  have signed : ∀ returnType : Option Node, (∀ node ∈ returnType, node.Plain) → Collects (do
      let parameters ← encodingParameters r
      return .encoding ⟨named.node, some {
        returnType := returnType
        parameters := parameters
        cv := named.traits.cv
        ref := named.traits.ref }⟩ : Parser Node) Node.Plain := by
    refine fun returnType h => (encodingParameters_collects hr).bind fun parameters hparameters =>
      .pure (.pair trivial rfl hname (.of_children trivial ?_))
    simpa [children,fields,or_imp,forall_and] using ⟨h,hparameters⟩
  refine .scan fun _ => .ite (fun _ => .here fun _ => (Collects.fail _).failing) fun _ =>
    .ite (fun _ => ?_) fun _ => ?_
  · exact (hr.type.map (f := some) (g := fun found => ∀ node ∈ found, node.Plain)
      fun _ h => by rintro _ ⟨⟩; exact h).bind signed
  · exact (Collects.pure (p := fun found => ∀ node ∈ found, node.Plain) (by simp)).bind signed

theorem encoding_collects : Collects (encoding r) Node.Plain := by
  unfold encoding
  exact .scan fun _ => .ite (fun _ => hr.specialName) fun _ => functionEncoding_collects hr

theorem specialTarget_collects (kind : SpecialNameKind) :
    Collects (specialTarget r kind) Node.Plain := by
  unfold specialTarget
  split
  all_goals first
    | exact hr.type
    | exact hr.name.map fun _ h => h
    | exact hr.templateArg
    | exact hr.encoding

theorem specialName_collects : Collects (specialName r) Node.Plain := by
  unfold specialName referenceTemporary constructionVtable
  refine .scan fun _ => .ite (fun _ => ?_) fun _ => .scan fun _ => .ite (fun _ => ?_) fun _ =>
    .here fun start => ?_
  · exact hr.name.bind fun _ h => .scan fun _ =>
        .ite (fun _ => .pure (.single trivial rfl h)) fun _ =>
      .scan fun _ => .scan fun _ => .pure (.single trivial rfl h)
  · exact hr.type.bind fun _ hcomplete => .scan fun _ => .scan fun _ => hr.type.bind fun _ hbase =>
      .pure (.pair trivial rfl hcomplete hbase)
  · split
    · exact .scan fun _ => .scan fun offsets => (specialTarget_collects hr _).bind fun _ h =>
        .build (.single trivial rfl h)
    · split
      · exact .fail _
      · exact .fail _

theorem mangledName_collects : Collects (mangledName r) Node.Plain := by
  unfold mangledName
  refine hr.encoding.bind fun encoding h => cloneSuffix_collects.bind fun suffix hsuffix =>
    .build (.single ?_ rfl h)
  cases suffix with
  | none => exact trivial
  | some text => exact hsuffix text rfl

theorem wholeSymbol_collects : Collects (wholeSymbol r) Node.Plain := by
  unfold wholeSymbol
  exact (mangledName_collects hr).bind fun _ h => .scan fun _ => .guardNot (.unexpected _) (.pure h)

theorem Rules.next_collect : r.next.Collect where
  encoding := .nested (encoding_collects hr)
  specialName := .nested (specialName_collects hr)
  name := .nested (name_collects hr)
  nestedName := .nested (nestedName_collects hr)
  localName := .nested (localName_collects hr)
  unqualifiedName := .nested (unqualifiedName_collects hr)
  templateArgs := .nested (templateArgs_collects hr)
  templateArg := .nested (templateArg_collects hr)
  type := .nested (type_collects hr)
  expression := .nested (expression_collects hr)
  exprPrimary := .nested (exprPrimary_collects hr)
  unresolvedName globalScope := .nested (unresolvedName_collects hr globalScope)

end

/-- However many levels are left, productions take over no brackets as digits or marks. -/
theorem Rules.levels_collect (n : Nat) : (Rules.levels n).Collect := by
  induction n with
  | zero =>
    have limited : ∀ {α : Type} {p : α → Prop}, Collects (limitReached : Parser α) p :=
      .get fun _ _ => .fail _
    exact ⟨limited,limited,limited,limited,limited,limited,limited,limited,limited,limited,limited,
      fun _ => limited⟩
  | succ n ih => exact Rules.next_collect ih

end MangledNames.Grammar
