import MangledNames.Proofs.Grammar.PointingNames
import MangledNames.Grammar.Production
set_option autoImplicit false

/-!
Expressions, encodings and complete symbols report faults that point at the text, with any number of
levels of nesting.
-/

namespace MangledNames.Grammar

open Cursor

section
variable {g : Region}

theorem functionParam_points : Points g functionParam := by
  have numbered : Points g (do
      let _ ← cvQualifiers
      if ← consume "_" then return .functionParam none
      let number ← unsigned "function parameter"
      expect "_" "function parameter"
      return .functionParam (some number) : Scan Node) :=
    cvQualifiers_points.bind fun _ => (consume_points _).bind fun _ =>
        .ite (fun _ => .pure _) fun _ =>
      (unsigned_points _).bind fun _ => (expect_points _ _).bind fun _ => .pure _
  unfold functionParam
  exact (consume_points _).bind fun _ => .ite
    (fun _ => (unsigned_points _).bind fun _ => (expect_points _ _).bind fun _ => numbered)
    fun _ => (expect_points _ _).bind fun _ => numbered

theorem sizeofPack_points : Points g sizeofPack := by
  unfold sizeofPack
  exact .code fun _ => .lookAt fun _ =>
      .ite (fun _ => templateParam_points.bind fun _ => .pure _) fun _ =>
    .lookAt fun _ => .lookAt fun _ =>
      .ite (fun _ => .scan functionParam_points fun _ => .pure _) fun _ =>
    unexpected_points _

/-- A value that does not fit its type is quoted by its first character, or by the `E` behind it. -/
theorem literalOf_points {start c : Cursor} (hstart : g.Contains start)
    (hc : g.Contains c) (type : Node) {value : List Char} (hvalue : value ++ ['E'] <+: start.rest) :
    PointsFrom g c (literalOf start type value) := by
  unfold literalOf
  split
  · split
    · exact .of_points (.pure _) hc
    · exact .error hc (hstart.points_token _ [] hvalue)
  · rename_i first others
    have first_points : ∀ production,
        (DemangleError.unexpectedToken production start.position
          (String.singleton first)).PointsInto g :=
      fun _ => hstart.points_token _ [] (.trans ⟨others ++ ['E'],rfl⟩ hvalue)
    split
    · exact .of_points (.pure _) hc
    · exact .of_points (.pure _) hc
    refine .ite (fun _ => .ite (fun _ => .of_points (.pure _) hc) fun _ =>
      .error hc (first_points _))
      fun _ => ?_
    split
    · exact .of_points (build_points _) hc
    · exact .error hc (first_points _)

theorem atEncodingEnd_points : Points g atEncodingEnd := by
  unfold atEncodingEnd
  exact (peekIs_points _ _).bind fun _ => .pure _

/-- The letter of a call offset that is none is quoted from where it stands. -/
theorem callOffset_points {letter : Char} {before c : Cursor} (hbefore : g.Contains before)
    (hc : g.Contains c) (hletter : letter = 'h' ∨ letter = 'v' ∨ [letter] <+: before.rest) :
    PointsFrom g c (callOffset letter before) := by
  unfold callOffset
  split
  · exact .of_points ((number_points _).bind fun _ => (expect_points _ _).bind fun _ => .pure _) hc
  · exact .of_points ((number_points _).bind fun _ => (expect_points _ _).bind fun _ =>
      (number_points _).bind fun _ => (expect_points _ _).bind fun _ => .pure _) hc
  · rename_i hh hv
    exact .error hc (hbefore.points_token _ [] ((hletter.resolve_left hh).resolve_left hv))

theorem announcedCallOffset_points : Points g announcedCallOffset := by
  unfold announcedCallOffset
  refine points_get fun before hbefore => pointsFrom_bind hbefore (next_points _)
    fun letter after hletter hafter => callOffset_points hbefore hafter (.inr (.inr ?_))
  rw [next_ok hletter]
  simp

theorem callOffsets_points (kind : SpecialNameKind) : Points g (callOffsets kind) := by
  have announced : ∀ {letter : Char}, letter = 'h' ∨ letter = 'v' →
      Points g (do return [← callOffset letter (← get)] : Scan (List CallOffset)) := fun h =>
    points_get fun _ hc => .bind (callOffset_points hc hc (or_assoc.mp (.inl h))) fun _ => .pure _
  unfold callOffsets
  split
  · exact announced (.inl rfl)
  · exact announced (.inr rfl)
  · exact announcedCallOffset_points.bind fun _ => announcedCallOffset_points.bind fun _ => .pure _
  · exact .pure _

theorem cloneSuffix_points : Points g cloneSuffix := by
  unfold cloneSuffix
  refine (Points.itemsUntil (.here fun _ hc => .of_points (.pure _) hc)
    (.here fun _ hc => .of_points
    (scanning_points (takeChars_points _ _)) hc)).bind fun _ => .pure _

end

section
variable {g : Region} {r : Rules} (hr : r.Point g)
include hr

theorem newExpression_points (globalScope : Bool) : Points g (newExpression r globalScope) := by
  unfold newExpression
  exact .lookAt fun _ => .code fun _ =>
    (Points.itemsUntil (scanning_points (consume_points _)) hr.expression).bind fun _ =>
    hr.type.bind fun _ => .consume fun _ => .lookAt fun _ =>
    .ite (fun _ => (Points.itemsToE hr.expression).map.bind fun _ => .pure _) fun _ =>
    .ite (fun _ => hr.expression.bind fun _ => (Points.pure _).bind fun _ => .pure _) fun _ =>
    .expect ((Points.pure _).bind fun _ => .pure _)

theorem deleteExpression_points (globalScope : Bool) :
    Points g (deleteExpression r globalScope) := by
  unfold deleteExpression
  exact .lookAt fun _ => .code fun _ => hr.expression.bind fun _ => .pure _

theorem memberExpression_points (access : MemberAccess) : Points g (memberExpression r access) := by
  unfold memberExpression
  exact .code fun _ => hr.expression.bind fun _ => (hr.unresolvedName false).bind fun _ => .pure _

section
variable {c : Cursor} (hc : g.Contains c) {code : Code} (hcode : [code.1,code.2] <+: c.rest)
include hc hcode

theorem operatorExpression_points : PointsFrom g c (operatorExpression r code) := by
  have hnone := hc.points_token "expression" [code.2] hcode
  unfold operatorExpression
  refine .here ?_
  split
  · exact .error hc hnone
  refine .of_points (.code fun _ => ?_) hc
  split
  · exact hr.expression.bind fun _ => .pure _
  · exact .consume fun _ => .ite (fun _ => hr.expression.bind fun _ => .pure _) fun _ =>
      hr.expression.bind fun _ => .pure _
  · exact hr.expression.bind fun _ => hr.expression.bind fun _ => .pure _
  · exact hr.expression.bind fun _ => hr.expression.bind fun _ => .pure _
  · exact hr.expression.bind fun _ => hr.expression.bind fun _ =>
      hr.expression.bind fun _ => .pure _
  · exact .error hnone

theorem codedExpression_points : PointsFrom g c (codedExpression r code) := by
  have operand : ∀ {production : String} (wrap : Node → Node), Points g (do
        let _ ← takeCode production
        return wrap (← r.expression) : Parser Node) :=
    fun _ => .code fun _ => hr.expression.bind fun _ => .pure _
  have listed : ∀ {item : Parser Node} (wrap : List Node → Node), Points g item →
      Points g (do return wrap (← itemsToE item) : Parser Node) :=
    fun _ hitem => (Points.itemsToE hitem).bind fun _ => .pure _
  unfold codedExpression
  split
  · exact .of_points (.code fun _ => hr.type.bind fun _ => hr.expression.bind fun _ => .pure _) hc
  split
  · exact .of_points (.code fun _ => hr.type.bind fun _ => .pure _) hc
  split
  · exact .of_points (operand (.expressionOperatorExpression _)) hc
  split
  · exact .of_points (scanning_points functionParam_points) hc
  · exact .of_points (scanning_points functionParam_points) hc
  · exact .of_points (.code fun _ => hr.expression.bind fun callee =>
      listed (.callExpression callee) hr.expression) hc
  · exact .of_points (.code fun _ => hr.type.bind fun type => .consume fun _ =>
      .ite (fun _ => listed (.conversionExpression type) hr.expression) fun _ =>
      hr.expression.bind fun _ => .pure _) hc
  · exact .of_points (.code fun _ => hr.type.bind fun type =>
      listed (.initListExpression (some type)) hr.expression) hc
  · exact .of_points (.code fun _ => listed (.initListExpression none) hr.expression) hc
  · exact .of_points (newExpression_points hr false) hc
  · exact .of_points (newExpression_points hr false) hc
  · exact .of_points (deleteExpression_points hr false) hc
  · exact .of_points (deleteExpression_points hr false) hc
  · exact .of_points sizeofPack_points hc
  · exact .of_points (.code fun _ =>
      listed (fun nodes => .sizeofPackExpression (.templateArgPack nodes)) hr.templateArg) hc
  · exact .of_points (memberExpression_points hr .dot) hc
  · exact .of_points (memberExpression_points hr .arrow) hc
  · exact .of_points (.code fun _ => hr.expression.bind fun _ =>
      hr.expression.bind fun _ => .pure _) hc
  · exact .of_points (operand .packExpansionExpression) hc
  · exact .of_points (operand fun node => .throwExpression (some node)) hc
  · exact .of_points (.code fun _ => .pure _) hc
  · exact operatorExpression_points hr hc hcode

end

theorem expression_points : Points g (expression r) := by
  unfold expression
  refine .here fun start hstart => ?_
  split
  · exact .of_points (unexpected_points _) hstart
  · exact .of_points hr.exprPrimary hstart
  · exact .of_points templateParam_points hstart
  · exact .of_points (.expect (.lookAt fun _ => .lookAt fun _ =>
      .ite (fun _ => newExpression_points hr true) fun _ => .lookAt fun _ => .lookAt fun _ =>
      .ite (fun _ => deleteExpression_points hr true) fun _ => hr.unresolvedName true)) hstart
  · exact .of_points (hr.unresolvedName false) hstart
  · exact .of_points (hr.unresolvedName false) hstart
  · exact .of_points (hr.unresolvedName false) hstart
  · rename_i first rest _ _ _ _ _ _ hrest
    refine .ite (fun _ => .of_points (hr.unresolvedName false) hstart) fun _ => ?_
    split
    · exact .error hstart (hstart.points_end _)
    · refine codedExpression_points hr hstart ?_
      rw [hrest]
      simp

theorem exprPrimary_points : Points g (exprPrimary r) := by
  unfold exprPrimary
  refine .expect (.scan (consumeAny_points _) fun _ =>
    .ite (fun _ => hr.encoding.bind fun _ => .expect (.pure _)) fun _ =>
    .scan (consumeAny_points _) fun _ => .ite (fun _ => .pure _) fun _ =>
      hr.type.bind fun type => ?_)
  refine .here fun start hstart => .scan hstart (takeUntil_points _ _)
      fun value after hvalue hafter =>
    literalOf_points hstart hafter type ?_
  rw [takeUntil_ok hvalue]
  simp

theorem encodingParameters_points : Points g (encodingParameters r) := by
  unfold encodingParameters
  exact .consume fun _ => .ite (fun _ => .pure _) fun _ => hr.type.bind fun _ =>
    (Points.itemsUntil (scanning_points atEncodingEnd_points) hr.type).bind fun _ => .pure _

theorem functionEncoding_points : Points g (functionEncoding r) := by
  unfold functionEncoding
  refine hr.name.bind fun named => .scan atEncodingEnd_points fun _ =>
      .ite (fun _ => .pure _) fun _ =>
    .of_from fun c hc => .scan hc (lookingAt_points _) fun found c' hlook hc' => ?_
  have signed : ∀ returnType : Option Node, Points g (do
      let parameters ← encodingParameters r
      return .encoding ⟨named.node, some {
        returnType := returnType
        parameters := parameters
        cv := named.traits.cv
        ref := named.traits.ref }⟩ : Parser Node) :=
    fun _ => (encodingParameters_points hr).bind fun _ => .pure _
  obtain ⟨rfl,rfl⟩ := lookingAt_ok hlook
  have rest := Points.ite (g := g) (p := named.traits.spellsReturnType)
    (fun _ => (Points.map (f := some) hr.type).bind signed) fun _ => (Points.pure none).bind signed
  refine .ite (fun hattribute => .here (.bind (.error hc (hc.points_extension _ fun hnil => ?_))
    fun _ => rest)) fun _ => .of_points rest hc
  rw [hnil] at hattribute
  cases hattribute

theorem encoding_points : Points g (encoding r) := by
  unfold encoding
  exact .lookFor fun _ => .ite (fun _ => hr.specialName) fun _ => functionEncoding_points hr

theorem specialTarget_points (kind : SpecialNameKind) : Points g (specialTarget r kind) := by
  unfold specialTarget
  split
  all_goals first
    | exact hr.type
    | exact hr.name.map
    | exact hr.templateArg
    | exact hr.encoding

theorem specialName_points : Points g (specialName r) := by
  have temporary : Points g (referenceTemporary r) := by
    unfold referenceTemporary
    exact hr.name.bind fun _ => .consume fun _ => .ite (fun _ => .pure _) fun _ =>
      .scan (seqId_points _) fun _ => .expect (.pure _)
  have vtable : Points g (constructionVtable r) := by
    unfold constructionVtable
    exact hr.type.bind fun _ => .scan (number_points _) fun _ =>
      .expect (hr.type.bind fun _ => .pure _)
  unfold specialName
  refine .consume fun _ => .ite (fun _ => temporary) fun _ => .consume fun _ =>
    .ite (fun _ => vtable)
    fun _ => .here fun start hstart => ?_
  split
  · exact .of_points (.scan (takeChars_points _ _) fun _ => .scan (callOffsets_points _) fun _ =>
      (specialTarget_points hr _).bind fun _ => build_points _) hstart
  · split
    · rename_i a b rest hrest
      refine .error hstart (hstart.points_token _ [b] ?_)
      rw [hrest]
      simp
    · exact .error hstart (hstart.points_end _)

theorem mangledName_points : Points g (mangledName r) := by
  unfold mangledName
  exact hr.encoding.bind fun _ => cloneSuffix_points.bind fun _ => build_points _

theorem wholeSymbol_points : Points g (wholeSymbol r) := by
  unfold wholeSymbol
  exact (mangledName_points hr).bind fun _ => .scan atEnd_points fun _ =>
    .guardNot (unexpected_points _) (.pure _)

theorem Rules.next_point : r.next.Point g where
  encoding := .nested (encoding_points hr)
  specialName := .nested (specialName_points hr)
  name := .nested (name_points hr)
  nestedName := .nested (nestedName_points hr)
  localName := .nested (localName_points hr)
  unqualifiedName := .nested (unqualifiedName_points hr)
  templateArgs := .nested (templateArgs_points hr)
  templateArg := .nested (templateArg_points hr)
  type := .nested (type_points hr)
  expression := .nested (expression_points hr)
  exprPrimary := .nested (exprPrimary_points hr)
  unresolvedName globalScope := .nested (unresolvedName_points hr globalScope)

end

/-- However many levels are left, the faults of productions point at the text. -/
theorem Rules.levels_point (g : Region) (n : Nat) : (Rules.levels n).Point g := by
  induction n with
  | zero =>
    have limited : ∀ {α : Type}, Points g (limitReached : Parser α) :=
      .get fun _ => .error trivial
    exact ⟨limited,limited,limited,limited,limited,limited,limited,limited,limited,limited,limited,
      fun _ => limited⟩
  | succ n ih => exact Rules.next_point ih

end MangledNames.Grammar
