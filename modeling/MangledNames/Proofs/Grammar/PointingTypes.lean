import MangledNames.Proofs.Grammar.Pointing
import MangledNames.Grammar.Type
set_option autoImplicit false

/-!
Back references, template arguments and types report faults that point at the text, if
the productions below them do.
-/

namespace MangledNames.Grammar

open Cursor

structure Rules.Point (r : Rules) (g : Region) : Prop where
  encoding : Points g r.encoding
  specialName : Points g r.specialName
  name : Points g r.name
  nestedName : Points g r.nestedName
  localName : Points g r.localName
  unqualifiedName : Points g r.unqualifiedName
  templateArgs : Points g r.templateArgs
  templateArg : Points g r.templateArg
  type : Points g r.type
  expression : Points g r.expression
  exprPrimary : Points g r.exprPrimary
  unresolvedName : ∀ globalScope, Points g (r.unresolvedName globalScope)

section
variable {g : Region}

theorem properName_points : Points g properName := by
  unfold properName
  exact .scan identifier_points fun _ => (build_points _).bind fun _ => .pure _

theorem sourceName_points : Points g sourceName := properName_points.map

/-- A reference that cannot be resolved is quoted as it was spelled, from its `S` on. -/
theorem resolve_points {start c : Cursor} (hstart : g.Contains start)
    (hc : g.Contains c) (index : Nat) {code : List Char} (hcode : SpellsIndex index code)
    (hrest : 'S' :: code <+: start.rest) :
    PointsFrom g c (do
      match (← get).substitutions.resolve index start.position with
      | .ok node => return node
      | .error error => fail error : Parser Node) := by
  refine .of_points (.get fun context => ?_) hc
  split
  · exact .pure _
  · rename_i error herror
    unfold Substitutions.resolve at herror
    split at herror
    · omega
    · split at herror
      · cases herror
      · rename_i hnone
        cases herror
        have hsize : context.substitutions.size ≤ index := by
          simpa [Substitutions.size] using hnone
        exact .error ⟨by exact_mod_cast hsize,code,hcode,hstart.drop ▸ hrest⟩

theorem substitution_points : Points g substitution := by
  unfold substitution
  refine .here fun start hstart => .scan hstart (expect_points _ _) fun _ c hS hc =>
    .scan hc (peekIs_points _ _) fun _ c' hpeek hc' => ?_
  obtain rfl := peekIs_ok hpeek
  have hS := expect_ok hS
  refine .ite (fun _ => .scan hc (next_points _) fun letter after hletter hafter => ?_) fun _ =>
    .scan hc (consume_points _) fun found after hfound hafter => ?_
  · split
    · exact .of_points (.pure _) hafter
    · refine .error hafter (hstart.points_token _ [letter] ?_)
      rw [hS,next_ok hletter]
      simp
  · have hfound := consume_ok hfound
    cases found with
    | true =>
      refine resolve_points hstart hafter 0 .first ?_
      rw [hS,hfound]
      simp
    | false =>
      refine .scan hafter (seqId_points _) fun number c hnumber hc => .scan hc (expect_points _ _)
        fun _ last hend hlast => ?_
      obtain ⟨digits,hne,hdigits,rfl,hread⟩ := seqId_ok hnumber
      obtain ⟨zeros,hzeros⟩ := seqDigits_eq hne hdigits
      refine resolve_points hstart hlast (numeral 36 digits + 1)
        (.later zeros (numeral 36 digits)) ?_
      rw [hS,← hfound,hread,expect_ok hend,← hzeros]
      simp

theorem templateParam_points : Points g templateParam := by
  unfold templateParam
  refine .here fun start hstart => .scan hstart (expect_points _ _) fun _ c hT hc =>
    .scan hc (lookingAt_points _) fun _ c' hlook hc' => ?_
  have hT := expect_ok hT
  have hextension := fun extension => hstart.points_extension extension (by simp [hT])
  refine .of_points
    (.guard (.error (hextension _)) (.lookFor fun _ => .guard (.error (hextension _)) ?_)) hc'
  exact .consume fun _ => .ite (fun _ => .pure _) fun _ => .scan (unsigned_points _) fun _ =>
    .expect (.pure _)

end

section
variable {g : Region} {r : Rules} (hr : r.Point g)
include hr

theorem templateArgs?_points : Points g r.templateArgs? := by
  unfold Rules.templateArgs?
  exact .lookAt fun _ => .ite (fun _ => hr.templateArgs.map) fun _ => .pure _

theorem withTemplateArgs_points (name : Node) : Points g (r.withTemplateArgs name) := by
  unfold Rules.withTemplateArgs
  refine (templateArgs?_points hr).bind fun arguments => ?_
  cases arguments with
  | none => exact .pure _
  | some arguments => exact .pure _

theorem templateArgs_points : Points g (templateArgs r) := by
  unfold templateArgs
  exact .expect (.allowingTemplateArgs true (.itemsToE hr.templateArg))

theorem templateArg_points : Points g (templateArg r) := by
  unfold templateArg
  refine .look fun next => ?_
  split
  · exact .expect (hr.expression.bind fun _ => .expect (.pure _))
  · exact .expect ((Points.itemsToE hr.templateArg).bind fun _ => .pure _)
  · exact hr.templateArgs.bind fun _ => .pure _
  · exact hr.exprPrimary
  · exact hr.type

theorem decltype_points : Points g (decltype r) := by
  unfold decltype
  exact .scan (consumeAny_points _) fun _ => .guardNot (unexpected_points _)
    (hr.expression.bind fun _ => .expect (.pure _))

theorem exceptionSpec_points : Points g (exceptionSpec r) := by
  unfold exceptionSpec
  exact .consume fun _ => .ite (fun _ => .pure _) fun _ =>
    .consume fun _ => .ite (fun _ => hr.expression.bind fun _ => .expect (.pure _)) fun _ =>
    .consume fun _ => .ite (fun _ => (Points.itemsToE hr.type).bind fun _ => .pure _)
      fun _ => .pure _

omit hr in
theorem functionTypeEnd_points : Points g functionTypeEnd := by
  unfold functionTypeEnd
  exact (consume_points _).bind fun _ => .ite (fun _ => .pure _) fun _ =>
    (consume_points _).bind fun _ => .ite (fun _ => .pure _) fun _ =>
    (consume_points _).bind fun _ => .ite (fun _ => .pure _) fun _ => .pure _

theorem functionTypeParameters_points : Points g (functionTypeParameters r) := by
  refine .repeatRound (fun parameters => .scan functionTypeEnd_points fun found => ?_) _
  split
  · exact .pure _
  · exact .consume fun _ => .ite (fun _ => .pure _) fun _ => hr.type.bind fun _ => .pure _

theorem functionType_points : Points g (functionType r) := by
  unfold functionType
  exact (exceptionSpec_points hr).bind fun _ => .consume fun _ => .expect (.consume fun _ =>
    hr.type.bind fun _ => (functionTypeParameters_points hr).bind fun _ => .pure _)

theorem arrayType_points : Points g (arrayType r) := by
  have element : ∀ bound : Option (Dimension Node),
      Points g (do return .arrayType (← r.type) bound : Parser Node) :=
    fun _ => hr.type.bind fun _ => .pure _
  unfold arrayType
  exact .expect (.consume fun _ => .lookFor fun _ =>
    .ite (fun _ => (Points.pure _).bind element) fun _ =>
    .ite (fun _ => .scan (unsigned_points _) fun _ =>
      .expect ((Points.pure _).bind element)) fun _ =>
    hr.expression.bind fun _ => .expect ((Points.pure _).bind element))

theorem vectorType_points : Points g (vectorType r) := by
  have element : ∀ bound : Dimension Node, Points g (do
      expect "_" "vector dimension"
      return .vectorType (← r.type) bound : Parser Node) := fun _ =>
        .expect (hr.type.bind fun _ => .pure _)
  unfold vectorType
  exact .expect (.consume fun _ => .ite (fun _ => hr.expression.map.bind element) fun _ =>
    (scanning_points (unsigned_points _)).map.bind element)

omit hr in
theorem qualify_points (cv : CvQualifiers) (inner : Node) : Points g (qualify cv inner) := by
  unfold qualify
  split
  · exact .pure _
  · exact build_points _

omit hr in
theorem builtinAfterD_points : Points g builtinAfterD := by
  unfold builtinAfterD
  refine .here fun start hstart => ?_
  split
  · rename_i letter rest hrest
    split
    · exact .of_points (.code fun _ => .pure _) hstart
    · refine .error hstart (hstart.points_token _ [letter] ?_)
      rw [hrest]
      simp
  · exact .error hstart (hstart.points_end _)

theorem typeAfterD_points : Points g (typeAfterD r) := by
  unfold typeAfterD
  refine .look fun next => ?_
  split
  · exact .remembered (.code fun _ => hr.type.bind fun _ => .pure _)
  · exact .remembered (decltype_points hr)
  · exact .remembered (decltype_points hr)
  · exact .remembered (vectorType_points hr)
  · exact .remembered (functionType_points hr)
  · exact .remembered (functionType_points hr)
  · exact .remembered (functionType_points hr)
  · exact .remembered (functionType_points hr)
  · exact .code fun _ => .scan (digits_points _) fun _ => .expect (.pure _)
  · exact builtinAfterD_points

theorem typeAfterT_points : Points g (typeAfterT r) := by
  unfold typeAfterT
  refine .look fun next => ?_
  split
  · exact .remembered (.code fun _ => hr.name.bind fun _ => .pure _)
  · exact .remembered (templateParam_points.bind fun _ => .get fun _ => .lookAt fun _ =>
      .ite (fun _ => .remember (hr.templateArgs.bind fun _ => .pure _)) fun _ => .pure _)

theorem typeAfterS_points : Points g (typeAfterS r) := by
  unfold typeAfterS
  exact .look fun _ => .ite (fun _ => .remembered hr.name.map) fun _ =>
    substitution_points.bind fun _ => .get fun _ => .lookAt fun _ =>
      .ite (fun _ => .remembered hr.templateArgs.map) fun _ => .pure _

theorem type_points : Points g (type r) := by
  have wrapped : ∀ (letter production : String) (wrap : Node → Node),
      Points g (remembered do
        expect letter production
        return wrap (← r.type)) :=
    fun _ _ _ => .remembered (.expect (hr.type.bind fun _ => .pure _))
  have named : Points g (remembered (Named.node <$> r.name)) := .remembered hr.name.map
  have qualified : Points g (remembered do
      let cv ← cvQualifiers
      qualify cv (← r.type)) :=
    .remembered (.scan cvQualifiers_points fun cv => hr.type.bind fun _ => qualify_points cv _)
  unfold type
  refine .look fun next => ?_
  split
  · exact unexpected_points _
  · exact qualified
  · exact qualified
  · exact qualified
  · exact .remembered
        (.expect (.scan identifier_points fun _ => (templateArgs?_points hr).bind fun _ =>
      hr.type.bind fun _ => .pure _))
  · exact wrapped "P" _ .pointerType
  · exact wrapped "R" _ (.referenceType · .lvalue)
  · exact wrapped "O" _ (.referenceType · .rvalue)
  · exact wrapped "C" _ .complexType
  · exact wrapped "G" _ .imaginaryType
  · exact .remembered (functionType_points hr)
  · exact .remembered (arrayType_points hr)
  · exact .remembered (.expect (hr.type.bind fun _ => hr.type.bind fun _ => .pure _))
  · exact typeAfterT_points hr
  · exact typeAfterD_points hr
  · exact .remembered
        (.expect (.scan identifier_points fun _ => (templateArgs?_points hr).bind fun _ =>
      .pure _))
  · exact typeAfterS_points hr
  · exact named
  · exact named
  · refine .ite (fun _ => named) fun _ => ?_
    split
    · exact .scan (next_points _) fun _ => .pure _
    · exact unexpected_points _

end

end MangledNames.Grammar
