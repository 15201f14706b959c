import MangledNames.Proofs.Grammar.Advancing
import MangledNames.Proofs.Grammar.SoundTypes
set_option autoImplicit false

/-!
Words, template arguments and types move on, if the productions below them do.
-/

namespace MangledNames.Grammar

open Cursor

/-- Rules that move on within levels which hang on their rank: so many rules may hand on to each
other before one of them reads a character. -/
structure Rules.Advance (budget : Nat → Nat) (r : Rules) : Prop where
  encoding : Advances (budget 2) 1 r.encoding
  specialName : Advances (budget 0) 1 r.specialName
  name : Advances (budget 1) 1 r.name
  nestedName : Advances (budget 0) 1 r.nestedName
  localName : Advances (budget 0) 1 r.localName
  unqualifiedName : Advances (budget 0) 1 r.unqualifiedName
  templateArgs : Advances (budget 0) 1 r.templateArgs
  templateArg : Advances (budget 3) 1 r.templateArg
  type : Advances (budget 2) 1 r.type
  expression : Advances (budget 1) 1 r.expression
  exprPrimary : Advances (budget 0) 1 r.exprPrimary
  unresolvedName : ∀ globalScope, Advances (budget 0) 1 (r.unresolvedName globalScope)

theorem Rules.Advance.mono {budget budget' : Nat → Nat} {r : Rules} (hr : r.Advance budget)
    (h : ∀ rank, rank ≤ 3 → budget' rank ≤ budget rank) : r.Advance budget' where
  encoding := hr.encoding.lower (h 2 (by decide))
  specialName := hr.specialName.lower (h 0 (by decide))
  name := hr.name.lower (h 1 (by decide))
  nestedName := hr.nestedName.lower (h 0 (by decide))
  localName := hr.localName.lower (h 0 (by decide))
  unqualifiedName := hr.unqualifiedName.lower (h 0 (by decide))
  templateArgs := hr.templateArgs.lower (h 0 (by decide))
  templateArg := hr.templateArg.lower (h 3 (by decide))
  type := hr.type.lower (h 2 (by decide))
  expression := hr.expression.lower (h 1 (by decide))
  exprPrimary := hr.exprPrimary.lower (h 0 (by decide))
  unresolvedName globalScope := (hr.unresolvedName globalScope).lower (h 0 (by decide))

section
variable {α : Type} {levels n : Nat}

theorem literal_advances (literal production : String) :
    Advances levels 0 (liftM (expect literal production) : Parser Unit) :=
  scanning_advances (expect_runs literal production (Nat.zero_le _))

theorem letter_advances (literal production : String) (h : 1 ≤ literal.toList.length) :
    Advances levels 1 (liftM (expect literal production) : Parser Unit) :=
  scanning_advances (expect_runs literal production h)

theorem consumed_advances (literal : String) :
    Advances levels 0 (liftM (consume literal) : Parser Bool) :=
  scanning_advances (consume_runs literal)

/-- A literal that comes next is read and pays for what follows it; whatever else comes is read by
the alternative. -/
theorem consumed_within_advances {budget : Nat} {literal : String} {found missing : Parser α}
    (hbudget : budget ≤ levels + 4) (h : n ≤ 1 ∧ 1 ≤ literal.toList.length)
    (hfound : Advances levels 0 found) (hmissing : Advances budget n missing) :
    Advances budget n (do if ← consume literal then found else missing : Parser α) := by
  refine AdvancesFrom.bind (scanning_advancesTo (consume_runsTo literal)) fun d isFound hd => .ite
    (fun hisFound => ?_) fun _ => ?_
  · have hlit := hd hisFound
    exact hfound.imp (fun _ _ _ => by omega) (by omega)
  · exact hmissing.imp (fun _ _ _ => by omega) (by omega)

theorem consumed_else_advances {literal : String} {found missing : Parser α}
    (h : n ≤ 1 ∧ 1 ≤ literal.toList.length) (hfound : Advances levels 0 found)
    (hmissing : Advances (levels + 4) n missing) :
    Advances (levels + 4) n (do if ← consume literal then found else missing : Parser α) :=
  consumed_within_advances (Nat.le_refl _) h hfound hmissing

theorem lookedAt_advances (literal : String) :
    Advances levels 0 (liftM (lookingAt literal) : Parser Bool) :=
  scanning_advances (lookingAt_runs literal)

theorem peeked_advances (ofClass : Char → Bool) (distance : Nat) :
    Advances levels 0 (liftM (peekIs ofClass distance) : Parser Bool) :=
  scanning_advances (peekIs_runs ofClass distance)

theorem code_advances (production : String) :
    Advances levels 1 (liftM (takeCode production) : Parser Code) :=
  scanning_advances ((takeCode_runs production).le (by decide))

theorem digits_advances (production : String) :
    Advances levels 0 (liftM (digits production) : Parser (List Char)) :=
  scanning_advances (digits_runs production).rest

theorem unsigned_advances (production : String) :
    Advances levels 0 (liftM (unsigned production) : Parser Nat) :=
  scanning_advances (unsigned_runs production).rest

theorem seqId_advances (production : String) :
    Advances levels 0 (liftM (seqId production) : Parser Nat) :=
  scanning_advances (seqId_runs production).rest

theorem identifier_advances : Advances levels 1 (liftM identifier : Parser String) :=
  scanning_advances identifier_runs

theorem properName_advances : Advances levels 1 properName := by
  unfold properName
  exact identifier_advances.first fun _ => (build_advances _).first fun _ => done_advances _

theorem sourceName_advances : Advances levels 1 sourceName := properName_advances.map

theorem tableEntry_advances (index offset : Nat) :
    Advances levels 0 (do
      match (← get).substitutions.resolve index offset with
      | .ok node => return node
      | .error error => fail error : Parser Node) := by
  refine get_advances.first fun context => ?_
  cases hnode : context.substitutions.resolve index offset with
  | ok node => exact done_advances node
  | error error => exact fail_advances (Substitutions.category_of_resolve hnode)

theorem substitution_advances : Advances levels 1 substitution := by
  unfold substitution
  refine here_advances.andThen fun start => (letter_advances "S" _ (by decide)).first fun _ =>
    (peeked_advances isLower 0).first fun _ => .ite (fun _ => ?_) fun _ => ?_
  · refine (scanning_advances (next_runs _).rest).first fun letter => ?_
    split
    · exact done_advances _
    · exact fail_advances rfl
  · refine (consumed_advances "_").first fun _ => .ite (fun _ => ?_) fun _ => ?_
    · exact (done_advances _).first fun index => tableEntry_advances index start.position
    · exact (seqId_advances _).first fun _ => (literal_advances "_" _).first fun _ =>
        (done_advances _).first fun index => tableEntry_advances index start.position

theorem templateParam_advances : Advances levels 1 templateParam := by
  unfold templateParam
  refine here_advances.andThen fun start => (letter_advances "T" _ (by decide)).first fun _ =>
    (lookedAt_advances "L").first fun _ => .guard (fail_advances rfl) ?_
  refine (peeked_advances _ 0).first fun _ => .guard (fail_advances rfl) ?_
  refine (consumed_advances "_").first fun _ => .ite (fun _ => done_advances _) fun _ => ?_
  exact (unsigned_advances _).first fun _ => (literal_advances "_" _).first fun _ =>
    done_advances _

theorem qualify_advances (cv : CvQualifiers) (inner : Node) :
    Advances levels 0 (qualify cv inner) := by
  unfold qualify
  split
  · exact done_advances _
  · exact build_advances _

theorem builtinAfterD_advances : Advances levels 1 builtinAfterD := by
  unfold builtinAfterD
  refine here_advances.andThen fun start => ?_
  split
  · split
    · exact (code_advances _).first fun _ => done_advances _
    · exact fail_advances rfl
  · exact fail_advances rfl

end

section
variable {levels : Nat} {r : Rules} (hr : r.Advance fun _ => levels)
include hr

theorem templateArgs?_advances : Advances levels 0 r.templateArgs? := by
  unfold Rules.templateArgs?
  exact (lookedAt_advances "I").first fun _ => .ite (fun _ => hr.templateArgs.rest.map)
    fun _ => done_advances _

theorem withTemplateArgs_advances (name : Node) : Advances levels 0 (r.withTemplateArgs name) := by
  unfold Rules.withTemplateArgs
  refine (templateArgs?_advances hr).first fun arguments => ?_
  cases arguments with
  | none => exact done_advances _
  | some arguments => exact done_advances _

theorem templateArgs_advances : Advances (levels + 4) 1 (templateArgs r) := by
  unfold templateArgs
  exact (letter_advances "I" _ (by decide)).pays fun _ =>
    allowingTemplateArgs_advances true (itemsToE_advances hr.templateArg)

theorem decltype_advances : Advances (levels + 4) 1 (decltype r) := by
  unfold decltype
  refine AdvancesFrom.bind (scanning_advancesTo (consumeAny_runsTo (n := 1) (by decide)))
    fun d found hd => .ite (fun h => ?_) fun _ => (unexpected_advances _).failing
  have content : Advances levels 0 (do
      let expression ← r.expression
      expect "E" "decltype"
      return .decltypeType expression : Parser Node) :=
    hr.expression.rest.first fun _ => (literal_advances "E" _).first fun _ => done_advances _
  have hlit := hd h
  exact content.imp (fun _ _ _ => by omega) (by omega)

theorem exceptionSpec_advances : Advances (levels + 4) 0 (exceptionSpec r) := by
  unfold exceptionSpec
  refine consumed_else_advances (by decide) (done_advances _) (consumed_else_advances (by decide) ?_
    (consumed_else_advances (by decide) ?_ (done_advances _)))
  · exact hr.expression.rest.first fun _ => (literal_advances "E" _).first fun _ => done_advances _
  · exact (itemsToE_advances hr.type).first fun _ => done_advances _

theorem functionTypeParameters_advances : Advances levels 0 (functionTypeParameters r) := by
  refine repeatRound_advances fun parameters => ?_
  refine AdvancesFrom.bind (scanning_advances (n := 0) functionTypeEnd_runs) fun d found _ => ?_
  cases found with
  | some ref => exact AdvancesFrom.pure trivial
  | none =>
    refine AdvancesFrom.bind (scanning_advancesTo (consume_runsTo "v")) fun e isVoid he =>
      .ite (fun h => ?_) fun _ => ?_
    · have hlit := he h
      refine AdvancesFrom.pure ?_
      change 1 ≤ d + (e + 0)
      simp at hlit
      omega
    · refine AdvancesFrom.bind (hr.type.lower (by omega)) fun f _ hf => AdvancesFrom.pure ?_
      change 1 ≤ d + (e + (f + 0))
      omega

theorem functionType_advances : Advances (levels + 4) 1 (functionType r) := by
  unfold functionType
  refine (exceptionSpec_advances hr).andThen fun spec => (consumed_advances "Dx").andThen fun _ =>
    (letter_advances "F" _ (by decide)).pays fun _ => ?_
  exact (consumed_advances "Y").first fun _ => hr.type.rest.first fun _ =>
    (functionTypeParameters_advances hr).first fun _ => done_advances _

theorem arrayType_advances : Advances (levels + 4) 1 (arrayType r) := by
  have element : ∀ dimension : Option (Dimension Node), Advances levels 0 (do
      return .arrayType (← r.type) dimension : Parser Node) :=
    fun _ => hr.type.rest.first fun _ => done_advances _
  unfold arrayType
  refine (letter_advances "A" _ (by decide)).pays fun _ => (consumed_advances "_").first fun _ => ?_
  refine (peeked_advances isDigit 0).first fun _ => .ite (fun _ => ?_) fun _ => .ite (fun _ => ?_)
    fun _ => ?_
  · exact (done_advances none).first element
  · exact (unsigned_advances _).first fun _ => (literal_advances "_" _).first fun _ =>
      (done_advances _).first element
  · exact hr.expression.rest.first fun _ => (literal_advances "_" _).first fun _ =>
      (done_advances _).first element

theorem vectorType_advances : Advances (levels + 4) 1 (vectorType r) := by
  have element : ∀ dimension : Dimension Node, Advances levels 0 (do
      expect "_" "vector dimension"
      return .vectorType (← r.type) dimension : Parser Node) :=
    fun _ => (literal_advances "_" _).first fun _ => hr.type.rest.first fun _ => done_advances _
  unfold vectorType
  refine (letter_advances "Dv" _ (by decide)).pays fun _ => (consumed_advances "_").first fun _ =>
    .ite (fun _ => ?_) fun _ => ?_
  · exact hr.expression.rest.map.first element
  · exact (unsigned_advances _).map.first element

theorem typeAfterD_advances : Advances (levels + 4) 1 (typeAfterD r) := by
  unfold typeAfterD
  refine (scanning_advances (peek_runs 1)).andThen fun c => ?_
  split
  · exact remembered_advances ((code_advances _).pays fun _ => hr.type.rest.first fun _ =>
      done_advances _)
  · exact remembered_advances (decltype_advances hr)
  · exact remembered_advances (decltype_advances hr)
  · exact remembered_advances (vectorType_advances hr)
  · exact remembered_advances (functionType_advances hr)
  · exact remembered_advances (functionType_advances hr)
  · exact remembered_advances (functionType_advances hr)
  · exact remembered_advances (functionType_advances hr)
  · exact (code_advances _).first fun _ => (digits_advances _).first fun _ =>
      (literal_advances "_" _).first fun _ => done_advances _
  · exact builtinAfterD_advances

theorem typeAfterT_advances : Advances (levels + 4) 1 (typeAfterT r) := by
  unfold typeAfterT
  refine (scanning_advances (peek_runs 1)).andThen fun c => ?_
  split
  · exact remembered_advances ((code_advances _).pays fun _ => hr.name.rest.first fun _ =>
      done_advances _)
  · refine remembered_advances (templateParam_advances.pays fun param => get_advances.first
      fun context => (lookedAt_advances "I").first fun _ => .ite (fun _ => ?_)
        fun _ => done_advances _)
    exact (remember_advances param).first fun _ => hr.templateArgs.rest.first fun _ =>
      done_advances _

end

section
variable {levels : Nat} {r : Rules} (hr : r.Advance (levels - ·))
include hr

theorem Rules.Advance.paid : r.Advance fun _ => levels - 3 := hr.mono fun _ _ => by omega

omit hr in
/-- What reads a character before it hands on has any rank. -/
theorem AdvancesFrom.of_paid {α : Type} {m : Parser α} {n rank : Nat}
    (h : Advances (levels - 3 + 4) n m) : Advances (levels + 1 - rank) n m :=
  h.lower (by omega)

theorem typeAfterS_advances : Advances (levels + 1 - 2) 1 (typeAfterS r) := by
  unfold typeAfterS
  refine (scanning_advances (peek_runs 1)).andThen fun c => .ite (fun _ => ?_) fun _ => .of_paid ?_
  · exact remembered_advances hr.name.map
  · refine substitution_advances.pays fun name => get_advances.first fun context =>
      (lookedAt_advances "I").first fun _ => .ite (fun _ => ?_) fun _ => done_advances _
    exact remembered_advances hr.paid.templateArgs.rest.map

theorem type_advances : Advances (levels + 1 - 2) 1 (type r) := by
  have paid : ∀ {next : Option Char} {m : Parser Node}, Advances (levels - 3 + 4) 1 m →
      AdvancesFrom (fun context => context.cursor.rest[0]? = next) (levels + 1 - 2) m
        fun d _ => 1 ≤ d := fun h => .of_advancesTo (.of_paid h)
  have wrapped : ∀ {next : Option Char} (letter production : String) (wrap : Node → Node),
      1 ≤ letter.toList.length →
      AdvancesFrom (fun context => context.cursor.rest[0]? = next) (levels + 1 - 2) (remembered do
        expect letter production
        return wrap (← r.type)) fun d _ => 1 ≤ d :=
    fun letter production wrap h => paid (remembered_advances ((letter_advances letter _ h).pays
      fun _ => hr.paid.type.rest.first fun _ => done_advances _))
  have named : ∀ {next : Option Char},
      AdvancesFrom (fun context => context.cursor.rest[0]? = next) (levels + 1 - 2)
        (remembered (Named.node <$> r.name)) fun d _ => 1 ≤ d :=
    .of_advancesTo (remembered_advances hr.name.map)
  have qualified : ∀ {c : Char}, c = 'r' ∨ c = 'V' ∨ c = 'K' →
      AdvancesFrom (fun context => context.cursor.rest[0]? = some c) (levels + 1 - 2) (remembered do
        let cv ← cvQualifiers
        qualify cv (← r.type)) fun d _ => 1 ≤ d := by
    intro c h
    have read : AdvancesFrom (fun context => context.cursor.rest[0]? = some c) (levels - 3 + 4)
        (liftM cvQualifiers : Parser CvQualifiers) fun d _ => 1 ≤ d :=
      scanning_advancesFrom (·.rest[0]? = some c) fun _ hnext =>
        (cvQualifiers_ends h hnext).imp (fun _ _ ht => ⟨ht.1,ht.2.1⟩) fun _ _ ht => ht
    exact (remembered_advances (read.pays fun cv => hr.paid.type.rest.first fun inner =>
      qualify_advances cv inner)).lower (by omega)
  unfold type
  refine peek_advances fun c => ?_
  split
  · exact .of_advancesTo (unexpected_advances _)
  · exact qualified (.inl rfl)
  · exact qualified (.inr (.inl rfl))
  · exact qualified (.inr (.inr rfl))
  · exact paid (remembered_advances ((letter_advances "U" _ (by decide)).pays fun _ =>
      identifier_advances.rest.first fun _ => (templateArgs?_advances hr.paid).first fun _ =>
        hr.paid.type.rest.first fun _ => done_advances _))
  · exact wrapped "P" _ .pointerType (by decide)
  · exact wrapped "R" _ (.referenceType · .lvalue) (by decide)
  · exact wrapped "O" _ (.referenceType · .rvalue) (by decide)
  · exact wrapped "C" _ .complexType (by decide)
  · exact wrapped "G" _ .imaginaryType (by decide)
  · exact paid (remembered_advances (functionType_advances hr.paid))
  · exact paid (remembered_advances (arrayType_advances hr.paid))
  · exact paid (remembered_advances ((letter_advances "M" _ (by decide)).pays fun _ =>
      hr.paid.type.rest.first fun _ => hr.paid.type.rest.first fun _ => done_advances _))
  · exact paid (typeAfterT_advances hr.paid)
  · exact paid (typeAfterD_advances hr.paid)
  · exact paid (remembered_advances ((letter_advances "u" _ (by decide)).pays fun _ =>
      identifier_advances.rest.first fun _ => (templateArgs?_advances hr.paid).first fun _ =>
        done_advances _))
  · exact .of_advancesTo (typeAfterS_advances hr)
  · exact named
  · exact named
  · split
    · exact named
    · split
      · exact .of_advancesTo ((scanning_advances (next_runs _)).first fun _ => done_advances _)
      · exact .of_advancesTo (unexpected_advances _)

theorem templateArg_advances : Advances (levels + 1 - 3) 1 (templateArg r) := by
  unfold templateArg
  refine (scanning_advances (peek_runs 0)).andThen fun c => ?_
  split
  · exact .of_paid ((letter_advances "X" _ (by decide)).pays fun _ =>
      hr.paid.expression.rest.first fun _ => (literal_advances "E" _).first fun _ =>
        done_advances _)
  · exact .of_paid ((letter_advances "J" _ (by decide)).pays fun _ =>
      (itemsToE_advances hr.paid.templateArg).first fun _ => done_advances _)
  · exact (hr.templateArgs.first fun _ => done_advances _).lower (by omega)
  · exact hr.exprPrimary.lower (by omega)
  · exact hr.type.lower (by omega)

end

end MangledNames.Grammar
