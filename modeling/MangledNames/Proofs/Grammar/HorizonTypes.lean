import MangledNames.Proofs.Grammar.HorizonReading
set_option autoImplicit false

/-!
Template arguments and types read the same whatever stands behind the text, if the productions below
them do.
-/

namespace MangledNames.Grammar

open Cursor Horizon

/-- Rules that read the same with the tail in view, where so many levels are left. -/
structure Rules.Foresee (v : Outlook) (n : Nat) (r : Rules) : Prop where
  encoding : (v.parses n).Sees 2 r.encoding
  specialName : (v.parses n).Sees 2 r.specialName
  name : (v.parses n).Sees 2 r.name
  nestedName : (v.parses n).Sees 2 r.nestedName
  localName : (v.parses n).Sees 2 r.localName
  unqualifiedName : (v.parses n).Sees 2 r.unqualifiedName
  templateArgs : (v.parses n).Sees 2 r.templateArgs
  templateArg : (v.parses n).Sees 1 r.templateArg
  type : (v.parses n).Sees 1 r.type
  expression : (v.parses n).Sees 2 r.expression
  exprPrimary : (v.parses n).Sees 2 r.exprPrimary
  unresolvedName : ∀ globalScope, (v.parses n).Sees 2 (r.unresolvedName globalScope)

section
variable {v : Outlook} {n k : Nat} {α : Type}

theorem consumed_parses (literal : String) (h : literal.toList.any isStop = false) :
    (v.parses n).SeesTo (liftM (consume literal) : Parser Bool)
      fun d found => found = true → literal.toList.length ≤ d :=
  scanning_sees (consume_sees literal h)

theorem passed_of_consumed {literal : String} {context after : Context}
    (h : (liftM (consume literal) : Parser Bool) context = .ok true after) :
    after.cursor.passed = literal.toList.reverse ++ context.cursor.passed := by
  change scanning (consume literal) context = _ at h
  unfold scanning at h
  rw [consume_apply] at h
  cases hskip : skip? literal.toList context.cursor with
  | none =>
    rw [hskip] at h
    cases h
  | some place =>
    simp only [hskip,EStateM.Result.ok.injEq,true_and] at h
    rw [← h]
    exact (skip?_eq_some hskip).1

theorem literal_sees (literal production : String) :
    (v.parses n).Sees literal.toList.length (liftM (expect literal production) : Parser Unit) :=
  scanning_sees (expect_sees literal production)

theorem code_sees (production : String) :
    (v.parses n).Sees 2 (liftM (takeCode production) : Parser Code) :=
  scanning_sees (takeCode_sees production)

theorem properName_sees : (v.parses n).Sees 2 properName := by
  unfold properName
  exact Sees.first (scanning_sees identifier_sees) fun _ => Sees.first (build_sees _) fun _ =>
    done_sees _

theorem sourceName_sees : (v.parses n).Sees 2 sourceName := Sees.map properName_sees

theorem resolved_sees (index position : Nat) : (v.parses n).Sees 0 (do
    match (← get).substitutions.resolve index position with
    | .ok node => pure node
    | .error error => fail error : Parser Node) := by
  refine get_sees (fun _ => rfl) fun context => ?_
  split
  · exact done_sees _
  · exact fail_sees

theorem substitution_sees : (v.parses n).Sees 2 substitution := by
  unfold substitution
  refine here_sees (fun _ => rfl) fun c => Sees.andThen (n := 1) (k := 1) (literal_sees "S" _)
    fun _ => peekedAhead_sees (fun _ => .ite (fun _ => ?_) fun _ => ?_) (Nat.le_refl 1)
  · refine Sees.first (scanning_sees (next_sees _)) fun letter => ?_
    split
    · exact done_sees _
    · exact fail_sees
  · refine Sees.ifFound (k := 0) (consumed_parses "_" (by decide)) ?_ ?_ (by decide)
    · exact Sees.first (done_sees _) fun index => resolved_sees index c.position
    · exact Sees.first (scanning_sees (seqId_sees _)) fun _ =>
        Sees.first (Sees.rest (literal_sees "_" _)) fun _ => Sees.first (done_sees _) fun index =>
          resolved_sees index c.position

theorem templateParam_sees : (v.parses n).Sees 2 templateParam := by
  unfold templateParam
  refine here_sees (fun _ => rfl) fun c => Sees.andThen (n := 1) (k := 1) (literal_sees "T" _)
    fun _ => lookedAhead_sees (fun _ => Sees.guard fail_sees ?_) (Nat.le_refl 1)
  refine peekedAhead_sees (fun _ => Sees.guard fail_sees ?_) (Nat.le_refl 1)
  refine Sees.ifFound (k := 0) (consumed_parses "_" (by decide)) (done_sees _) ?_
    (by decide)
  exact Sees.first (scanning_sees (unsigned_sees _)) fun _ =>
    Sees.first (Sees.rest (literal_sees "_" _)) fun _ => done_sees _

theorem qualify_sees (cv : CvQualifiers) (inner : Node) :
    (v.parses n).Sees 0 (qualify cv inner) := by
  unfold qualify
  split
  · exact done_sees _
  · exact build_sees _

def builtinAt (start : Cursor) : Parser Node :=
  match start.rest with
  | 'D' :: letter :: _ =>
    match BuiltinType.ofLetterAfterD? letter with
    | some type => do
      let _ ← takeCode "type"
      return .builtinType type
    | none => fail (.unexpectedToken "type" start.position (String.ofList ['D',letter]))
  | _ => fail (.unexpectedEnd "type" start.length)

theorem builtinAt_sees (start : Cursor) : (v.parses n).Sees 2 (builtinAt start) := by
  unfold builtinAt
  split
  · split
    · exact Sees.first (code_sees _) fun _ => done_sees _
    · exact fail_sees
  · exact fail_sees

theorem builtinAt_fails {start : Cursor} (h : start.rest.head? ≠ some 'D') :
    (v.parses n).Moves (builtinAt start) fun _ _ => False := by
  unfold builtinAt
  split
  · rename_i hrest
    simp [hrest] at h
  · exact fail_sees.moves

theorem builtinAfterD_sees : (v.parses n).Sees 2 builtinAfterD := by
  refine sees_of_length (m := here >>= builtinAt)
    (fun context => (builtinAt_sees _).moves context) ?_
  rintro ⟨⟨passed,_ | ⟨a,_ | ⟨b,rest⟩⟩⟩,_,_,_,_,_⟩ hcontext hlength
  · exact absurd hlength (by simp)
  · exact absurd hlength (by simp)
  · by_cases ha : a = 'D'
    · subst ha
      exact (builtinAt_sees ⟨passed,'D' :: b :: rest⟩).agrees _ hcontext trivial
    · exact agrees_of_failing
        (builtinAt_fails (by simpa [Context.followedBy,Cursor.followedBy] using ha))
        (builtinAt_fails (by simpa using ha)) _ _

end

section
variable {v : Outlook} {n : Nat} {r : Rules} (h : r.Foresee v n)
include h

theorem templateArgs?_sees : (v.parses n).Sees 0 r.templateArgs? := by
  unfold Rules.templateArgs?
  exact lookedAt_sees (k := 2) (by decide) (Sees.map h.templateArgs) (done_sees _) (by decide)

theorem withTemplateArgs_sees (name : Node) : (v.parses n).Sees 0 (r.withTemplateArgs name) := by
  unfold Rules.withTemplateArgs
  refine Sees.first (templateArgs?_sees h) fun arguments => ?_
  cases arguments with
  | none => exact done_sees _
  | some arguments => exact done_sees _

theorem templateArgs_sees : (v.parses n).Sees 2 (templateArgs r) := by
  unfold templateArgs
  exact Sees.andThen (n := 1) (k := 1) (literal_sees "I" _) fun _ =>
    allowingTemplateArgs_sees true (itemsToE_sees h.templateArg)

theorem templateArg_sees : (v.parses n).Sees 1 (templateArg r) := by
  unfold templateArg
  refine peeked_sees (fun next => .of_seesTo ?_) (Nat.le_refl 1)
  split
  · exact Sees.first (literal_sees "X" _) fun _ => Sees.first (Sees.rest h.expression) fun _ =>
      Sees.first (Sees.rest (literal_sees "E" _)) fun _ => done_sees _
  · exact Sees.first (literal_sees "J" _) fun _ =>
      Sees.first (Sees.rest (itemsToE_sees h.templateArg)) fun _ => done_sees _
  · exact Sees.first (Sees.le h.templateArgs (by decide)) fun _ => done_sees _
  · exact Sees.le h.exprPrimary (by decide)
  · exact h.type

theorem decltype_sees : (v.parses n).Sees 2 (decltype r) := by
  unfold decltype
  refine (scanning_sees (consumeAny_sees (n := 2) (by decide))).bind fun d found hd => ?_
  cases found with
  | false => exact Sees.failing (unexpected_sees _)
  | true =>
    have hreads := hd rfl
    refine (Sees.first (Sees.rest h.expression) fun _ =>
      Sees.first (Sees.rest (literal_sees "E" _)) fun _ => done_sees _).imp fun _ _ _ => ?_
    omega

theorem exceptionSpec_sees : (v.parses n).Sees 0 (exceptionSpec r) := by
  unfold exceptionSpec
  refine Sees.ifFound (consumed_parses "Do" (by decide)) (done_sees _) ?_ (Nat.zero_le _)
  refine Sees.ifFound (k := 0) (consumed_parses "DO" (by decide)) ?_ ?_ (Nat.zero_le _)
  · exact Sees.first (Sees.rest h.expression) fun _ =>
      Sees.first (Sees.rest (literal_sees "E" _)) fun _ => done_sees _
  · refine Sees.ifFound (k := 0) (consumed_parses "Dw" (by decide)) ?_ (done_sees _)
      (Nat.zero_le _)
    exact Sees.first (Sees.rest (itemsToE_sees h.type)) fun _ => done_sees _

theorem functionTypeParameters_sees : (v.parses n).Sees 1 (functionTypeParameters r) := by
  refine repeatRound_sees_of_rounds (fun parameters => ?_) []
  refine (scanning_sees functionTypeEnd_sees).bind fun d found hd => ?_
  cases found with
  | some ref =>
    have hreads := hd rfl
    exact .pure hreads
  | none =>
    refine (consumed_parses "v" (by decide)).bind fun e found he => .ite (fun hfound => ?_)
      fun _ => ?_
    · have hreads : 1 ≤ e := he hfound
      refine .pure ?_
      change 1 ≤ d + (e + 0)
      omega
    · refine h.type.bind fun f parameter hf => .pure ?_
      change 1 ≤ d + (e + (f + 0))
      omega

theorem functionType_sees : (v.parses n).Sees 2 (functionType r) := by
  unfold functionType
  exact Sees.after (exceptionSpec_sees h) fun _ =>
      Sees.after (consumed_parses _ (by decide)) fun _ =>
    Sees.andThen (n := 1) (k := 1) (literal_sees "F" _) fun _ =>
      Sees.after (consumed_parses _ (by decide)) fun _ => Sees.first h.type fun _ =>
        Sees.first (Sees.rest (functionTypeParameters_sees h)) fun _ => done_sees _

theorem arrayType_sees : (v.parses n).Sees 2 (arrayType r) := by
  unfold arrayType
  refine Sees.andThen (n := 1) (k := 1) (literal_sees "A" _) fun _ =>
    Sees.after (consumed_parses _ (by decide)) fun _ =>
      peekedAhead_sees (fun _ => .ite (fun _ => ?_)
      fun _ => .ite (fun _ => ?_) fun _ => ?_) (Nat.le_refl 1)
  · exact Sees.after (done_sees _) fun _ => Sees.first h.type fun _ => done_sees _
  · exact Sees.after (scanning_sees (unsigned_sees _)) fun _ => Sees.after (literal_sees "_" _)
      fun _ => Sees.after (done_sees _) fun _ => Sees.first h.type fun _ => done_sees _
  · exact Sees.after h.expression fun _ => Sees.after (literal_sees "_" _) fun _ =>
      Sees.after (done_sees _) fun _ => Sees.first h.type fun _ => done_sees _

theorem vectorType_sees : (v.parses n).Sees 2 (vectorType r) := by
  unfold vectorType
  refine Sees.first (literal_sees "Dv" _) fun _ =>
      Sees.after (consumed_parses _ (by decide)) fun _ =>
    .ite (fun _ => ?_) fun _ => ?_
  · exact Sees.after (Sees.map h.expression) fun _ => Sees.after (literal_sees "_" _) fun _ =>
      Sees.after h.type fun _ => done_sees _
  · exact Sees.after (Sees.map (scanning_sees (unsigned_sees _))) fun _ =>
      Sees.after (literal_sees "_" _) fun _ => Sees.after h.type fun _ => done_sees _

theorem typeAfterD_sees : (v.parses n).Sees 2 (typeAfterD r) := by
  unfold typeAfterD
  refine peeked_sees (fun next => .of_seesTo ?_) (Nat.le_refl 2)
  split
  · exact remembered_sees (Sees.first (code_sees _) fun _ => Sees.after h.type fun _ => done_sees _)
  · exact remembered_sees (decltype_sees h)
  · exact remembered_sees (decltype_sees h)
  · exact remembered_sees (vectorType_sees h)
  · exact remembered_sees (functionType_sees h)
  · exact remembered_sees (functionType_sees h)
  · exact remembered_sees (functionType_sees h)
  · exact remembered_sees (functionType_sees h)
  · exact Sees.first (code_sees _) fun _ => Sees.after (scanning_sees (digits_sees _)) fun _ =>
      Sees.after (literal_sees "_" _) fun _ => done_sees _
  · exact builtinAfterD_sees

theorem typeAfterT_sees : (v.parses n).Sees 2 (typeAfterT r) := by
  unfold typeAfterT
  refine peeked_sees (fun next => .of_seesTo ?_) (Nat.le_refl 2)
  split
  · exact remembered_sees (Sees.first (code_sees _) fun _ => Sees.after h.name fun _ => done_sees _)
  · refine remembered_sees (Sees.first templateParam_sees fun param => get_sees (fun _ => rfl)
      fun context => ?_)
    exact lookedAtIf_sees (k := 2) _ (by decide) (Sees.after (remember_sees param) fun _ =>
      Sees.first h.templateArgs fun _ => done_sees _) (done_sees _) (by decide)

theorem typeAfterS_sees : (v.parses n).Sees 2 (typeAfterS r) := by
  unfold typeAfterS
  refine peeked_sees (fun next => .of_seesTo (.ite (fun _ => ?_) fun _ => ?_)) (Nat.le_refl 2)
  · exact remembered_sees (Sees.map h.name)
  · refine Sees.first substitution_sees fun name => get_sees (fun _ => rfl) fun context => ?_
    exact lookedAtIf_sees (k := 2) _ (by decide) (remembered_sees (Sees.map h.templateArgs))
      (done_sees _) (by decide)

theorem type_sees : (v.parses n).Sees 1 (type r) := by
  have wrapped : ∀ (letter production : String) (wrap : Node → Node), letter.toList.length = 1 →
      (v.parses n).Sees 1 (remembered do
        expect letter production
        return wrap (← r.type)) := fun letter production wrap hletter =>
    remembered_sees
      (Sees.first (Sees.le (literal_sees letter production) (Nat.le_of_eq hletter.symm))
      fun _ => Sees.after h.type fun _ => done_sees _)
  have qualified : (v.parses n).Sees 1 (remembered do
        let cv ← cvQualifiers
        qualify cv (← r.type)) :=
    remembered_sees (Sees.after (scanning_sees cvQualifiers_sees) fun cv => Sees.first h.type
      fun inner => qualify_sees cv inner)
  have named : (v.parses n).Sees 1 (remembered (Named.node <$> r.name)) :=
    remembered_sees (Sees.map (Sees.le h.name (by decide)))
  unfold type
  refine peeked_sees (fun next => .of_seesTo ?_) (Nat.le_refl 1)
  split
  · exact unexpected_sees _
  · exact qualified
  · exact qualified
  · exact qualified
  · exact remembered_sees (Sees.first (literal_sees "U" _) fun _ =>
      Sees.after (scanning_sees identifier_sees) fun _ => Sees.after (templateArgs?_sees h) fun _ =>
        Sees.after h.type fun _ => done_sees _)
  · exact wrapped "P" _ .pointerType rfl
  · exact wrapped "R" _ (.referenceType · .lvalue) rfl
  · exact wrapped "O" _ (.referenceType · .rvalue) rfl
  · exact wrapped "C" _ .complexType rfl
  · exact wrapped "G" _ .imaginaryType rfl
  · exact remembered_sees (Sees.le (functionType_sees h) (by decide))
  · exact remembered_sees (Sees.le (arrayType_sees h) (by decide))
  · exact remembered_sees (Sees.first (literal_sees "M" _) fun _ => Sees.after h.type fun _ =>
      Sees.after h.type fun _ => done_sees _)
  · exact Sees.le (typeAfterT_sees h) (by decide)
  · exact Sees.le (typeAfterD_sees h) (by decide)
  · exact remembered_sees (Sees.first (literal_sees "u" _) fun _ =>
      Sees.after (scanning_sees identifier_sees) fun _ => Sees.after (templateArgs?_sees h) fun _ =>
        done_sees _)
  · exact Sees.le (typeAfterS_sees h) (by decide)
  · exact named
  · exact named
  · refine .ite (fun _ => named) fun _ => ?_
    split
    · exact Sees.first (scanning_sees (next_sees _)) fun _ => done_sees _
    · exact unexpected_sees _

end

end MangledNames.Grammar
