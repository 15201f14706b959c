import MangledNames.Proofs.Grammar.Lockstep
set_option autoImplicit false

/-!
The words of the grammar, template arguments and types are read alike by two runs over one text, if
the productions below them are.
-/

namespace MangledNames.Grammar

open Cursor

section
variable {front : List Char}

theorem seqId_alike (production : String) :
    (Cursor.lockstep front).Alike (seqId production) (seqId production) := by
  unfold seqId
  refine Cursor.get_alike.bind ?_
  rintro c d rfl
  rw [behind_rest]
  split
  · exact Cursor.unexpected_alike production
  · exact (set_alike (advance_behind ..)).bind fun _ => .pure rfl

theorem discriminator_alike : (Cursor.lockstep front).Alike discriminator discriminator := by
  have taken :
      (Cursor.lockstep front).Alike (takeCode "discriminator") (takeCode "discriminator") :=
    takeCode_alike _
  unfold discriminator
  refine (lookingAt_alike "_").bind fun _ => Simulation.Alike.bind ?_ fun _ => .ite (fun _ => ?_)
    fun _ => (lookingAt_alike "__").bind fun _ => Simulation.Alike.bind ?_ fun _ => .ite
      (fun _ => ?_) fun _ => .pure rfl
  · exact (peekIs_alike isDigit 1).bind fun _ => .pure rfl
  · exact taken.bind fun _ => .pure rfl
  · exact (peekIs_alike isDigit 2).bind fun _ => .pure rfl
  · exact taken.bind fun _ => (digits_alike _).bind fun _ => expect_alike "_" _

theorem numberSuffix_alike (production : String) :
    (Cursor.lockstep front).Alike (numberSuffix production) (numberSuffix production) := by
  unfold numberSuffix
  exact (consume_alike "_").bind fun _ => .ite (fun _ => .pure rfl) fun _ =>
    (unsigned_alike production).bind fun _ => (expect_alike "_" production).bind fun _ => .pure rfl

theorem identifier_alike : (Cursor.lockstep front).Alike identifier identifier := by
  unfold identifier
  refine Cursor.get_alike.bind ?_
  rintro c d rfl
  refine (unsigned_alike _).bind fun length => .guard (Cursor.fail_alike ?_) ?_
  · simp [DemangleError.later]
  · exact (takeChars_alike length _).bind fun _ => .pure rfl

theorem cvQualifiers_alike : (Cursor.lockstep front).Alike cvQualifiers cvQualifiers := by
  unfold cvQualifiers
  exact (consume_alike "r").bind fun _ => (consume_alike "V").bind fun _ =>
    (consume_alike "K").bind fun _ => .pure rfl

theorem refQualifier_alike : (Cursor.lockstep front).Alike refQualifier refQualifier := by
  unfold refQualifier
  exact (consume_alike "R").bind fun _ => .ite (fun _ => .pure rfl) fun _ =>
    (consume_alike "O").bind fun _ => .ite (fun _ => .pure rfl) fun _ => .pure rfl

end

section
variable {g : Gap} {α : Type}

theorem expected_alike (literal production : String) :
    g.lockstep.Alike (liftM (expect literal production) : Parser Unit)
      (liftM (expect literal production) : Parser Unit) :=
  scanning_alike (expect_alike literal production)

theorem consumed_alike (literal : String) :
    g.lockstep.Alike (liftM (consume literal) : Parser Bool)
      (liftM (consume literal) : Parser Bool) :=
  scanning_alike (consume_alike literal)

theorem lookedAt_alike (literal : String) :
    g.lockstep.Alike (liftM (lookingAt literal) : Parser Bool)
      (liftM (lookingAt literal) : Parser Bool) :=
  scanning_alike (lookingAt_alike literal)

theorem peeked_alike (distance : Nat) :
    g.lockstep.Alike (liftM (peek distance) : Parser (Option Char))
      (liftM (peek distance) : Parser (Option Char)) :=
  scanning_alike (peek_alike distance)

theorem peekedIs_alike (ofClass : Char → Bool) (distance : Nat) :
    g.lockstep.Alike (liftM (peekIs ofClass distance) : Parser Bool)
      (liftM (peekIs ofClass distance) : Parser Bool) :=
  scanning_alike (peekIs_alike ofClass distance)

theorem code_alike (production : String) :
    g.lockstep.Alike (liftM (takeCode production) : Parser Code)
      (liftM (takeCode production) : Parser Code) :=
  scanning_alike (takeCode_alike production)

/-- An error whose offset is where a production started. -/
theorem token_alike (c : Cursor) (production token : String) :
    g.lockstep.Alike (fail (.unexpectedToken production c.position token) : Parser α)
      (fail (.unexpectedToken production (c.behind g.front).position token) : Parser α) :=
  fail_alike (by simp [DemangleError.later])

theorem extension_alike (c : Cursor) (extension : String) :
    g.lockstep.Alike (fail (.unsupportedExtension extension c.position) : Parser α)
      (fail (.unsupportedExtension extension (c.behind g.front).position) : Parser α) :=
  fail_alike (by simp [DemangleError.later])

theorem end_alike (c : Cursor) (production : String) :
    g.lockstep.Alike (fail (.unexpectedEnd production c.length) : Parser α)
      (fail (.unexpectedEnd production (c.behind g.front).length) : Parser α) :=
  fail_alike (by simp [DemangleError.later])

theorem properName_alike : g.lockstep.Alike properName properName := by
  unfold properName
  exact (scanning_alike identifier_alike).bind fun _ => (build_alike _).bind fun _ => .pure rfl

theorem sourceName_alike : g.lockstep.Alike sourceName sourceName := properName_alike.map

theorem resolved_alike (c : Cursor) (index : Nat) :
    g.lockstep.Alike (do
      match (← get).substitutions.resolve index c.position with
      | .ok node => pure node
      | .error error => fail error : Parser Node) (do
      match (← get).substitutions.resolve index (c.behind g.front).position with
      | .ok node => pure node
      | .error error => fail error) := by
  refine get_alike.bind fun before after h => ?_
  rw [h.substitutions]
  unfold Substitutions.resolve
  rw [if_neg (by omega),if_neg (by omega)]
  cases before.substitutions.entries[(index : Int).toNat]? with
  | none => exact fail_alike (by simp [DemangleError.later])
  | some node => exact .pure rfl

theorem substitution_alike : g.lockstep.Alike substitution substitution := by
  unfold substitution
  refine here_alike.bind ?_
  rintro c d rfl
  refine (expected_alike "S" _).bind fun _ => (peekedIs_alike isLower 0).bind fun _ => .ite
    (fun _ => ?_) fun _ => ?_
  · refine (scanning_alike (next_alike _)).bind fun letter => ?_
    split
    · exact .pure rfl
    · exact token_alike c _ _
  · refine (consumed_alike "_").bind fun _ => .ite (fun _ => ?_) fun _ => ?_
    · exact Simulation.Alike.bind (.pure rfl) fun index => resolved_alike c index
    · exact (scanning_alike (seqId_alike _)).bind fun _ => (expected_alike "_" _).bind fun _ =>
        Simulation.Alike.bind (.pure rfl) fun index => resolved_alike c index

theorem templateParam_alike : g.lockstep.Alike templateParam templateParam := by
  unfold templateParam
  refine here_alike.bind ?_
  rintro c d rfl
  refine (expected_alike "T" _).bind fun _ => (lookedAt_alike "L").bind fun _ =>
    .guard (extension_alike c _) ?_
  refine (peekedIs_alike _ 0).bind fun _ => .guard (extension_alike c _) ?_
  exact (consumed_alike "_").bind fun _ => .ite (fun _ => .pure rfl) fun _ =>
    (scanning_alike (unsigned_alike _)).bind fun _ => (expected_alike "_" _).bind fun _ => .pure rfl

/-- Rules that read alike. -/
structure Rules.Alike (g : Gap) (r r' : Rules) : Prop where
  encoding : g.lockstep.Alike r.encoding r'.encoding
  specialName : g.lockstep.Alike r.specialName r'.specialName
  name : g.lockstep.Alike r.name r'.name
  nestedName : g.lockstep.Alike r.nestedName r'.nestedName
  localName : g.lockstep.Alike r.localName r'.localName
  unqualifiedName : g.lockstep.Alike r.unqualifiedName r'.unqualifiedName
  templateArgs : g.lockstep.Alike r.templateArgs r'.templateArgs
  templateArg : g.lockstep.Alike r.templateArg r'.templateArg
  type : g.lockstep.Alike r.type r'.type
  expression : g.lockstep.Alike r.expression r'.expression
  exprPrimary : g.lockstep.Alike r.exprPrimary r'.exprPrimary
  unresolvedName : ∀ globalScope,
    g.lockstep.Alike (r.unresolvedName globalScope) (r'.unresolvedName globalScope)

theorem qualify_alike (cv : CvQualifiers) (inner : Node) :
    g.lockstep.Alike (qualify cv inner) (qualify cv inner) := by
  unfold qualify
  split
  · exact .pure rfl
  · exact build_alike _

theorem builtinAfterD_alike : g.lockstep.Alike builtinAfterD builtinAfterD := by
  unfold builtinAfterD
  refine here_alike.bind ?_
  rintro c d rfl
  rw [behind_rest]
  split
  · split
    · exact (code_alike _).bind fun _ => .pure rfl
    · exact token_alike c _ _
  · exact end_alike c _

theorem functionTypeEnd_alike {front : List Char} :
    (Cursor.lockstep front).Alike functionTypeEnd functionTypeEnd := by
  unfold functionTypeEnd
  exact (consume_alike "E").bind fun _ => .ite (fun _ => .pure rfl) fun _ =>
    (consume_alike "RE").bind fun _ => .ite (fun _ => .pure rfl) fun _ =>
      (consume_alike "OE").bind fun _ => .ite (fun _ => .pure rfl) fun _ => .pure rfl

end

section
variable {g : Gap} {r r' : Rules} (h : r.Alike g r')
include h

theorem templateArgs?_alike : g.lockstep.Alike r.templateArgs? r'.templateArgs? := by
  unfold Rules.templateArgs?
  exact (lookedAt_alike "I").bind fun _ => .ite (fun _ => h.templateArgs.map) fun _ => .pure rfl

theorem withTemplateArgs_alike (name : Node) :
    g.lockstep.Alike (r.withTemplateArgs name) (r'.withTemplateArgs name) := by
  unfold Rules.withTemplateArgs
  refine (templateArgs?_alike h).bind fun arguments => ?_
  cases arguments with
  | none => exact .pure rfl
  | some arguments => exact .pure rfl

theorem templateArgs_alike : g.lockstep.Alike (templateArgs r) (templateArgs r') := by
  unfold templateArgs
  exact (expected_alike "I" _).bind fun _ =>
    allowingTemplateArgs_alike true (itemsToE_alike h.templateArg)

theorem templateArg_alike : g.lockstep.Alike (templateArg r) (templateArg r') := by
  unfold templateArg
  refine (peeked_alike 0).bind fun c => ?_
  split
  · exact (expected_alike "X" _).bind fun _ => h.expression.bind fun _ =>
      (expected_alike "E" _).bind fun _ => .pure rfl
  · exact (expected_alike "J" _).bind fun _ =>
      (itemsToE_alike h.templateArg).bind fun _ => .pure rfl
  · exact h.templateArgs.bind fun _ => .pure rfl
  · exact h.exprPrimary
  · exact h.type

theorem decltype_alike : g.lockstep.Alike (decltype r) (decltype r') := by
  unfold decltype
  refine (scanning_alike (consumeAny_alike _)).bind fun _ => .guardNot (unexpected_alike _) ?_
  exact h.expression.bind fun _ => (expected_alike "E" _).bind fun _ => .pure rfl

theorem exceptionSpec_alike : g.lockstep.Alike (exceptionSpec r) (exceptionSpec r') := by
  unfold exceptionSpec
  refine (consumed_alike "Do").bind fun _ => .ite (fun _ => .pure rfl) fun _ =>
    (consumed_alike "DO").bind fun _ => .ite (fun _ => ?_) fun _ =>
      (consumed_alike "Dw").bind fun _ => .ite (fun _ => ?_) fun _ => .pure rfl
  · exact h.expression.bind fun _ => (expected_alike "E" _).bind fun _ => .pure rfl
  · exact (itemsToE_alike h.type).bind fun _ => .pure rfl

theorem functionTypeParameters_alike :
    g.lockstep.Alike (functionTypeParameters r) (functionTypeParameters r') := by
  refine repeatRound_alike (fun parameters => ?_) []
  refine (scanning_alike functionTypeEnd_alike).bind fun found => ?_
  cases found with
  | some ref => exact .pure rfl
  | none => exact (consumed_alike "v").bind fun _ => .ite (fun _ => .pure rfl) fun _ =>
      h.type.bind fun _ => .pure rfl

theorem functionType_alike : g.lockstep.Alike (functionType r) (functionType r') := by
  unfold functionType
  exact (exceptionSpec_alike h).bind fun _ => (consumed_alike "Dx").bind fun _ =>
    (expected_alike "F" _).bind fun _ => (consumed_alike "Y").bind fun _ => h.type.bind fun _ =>
      (functionTypeParameters_alike h).bind fun _ => .pure rfl

theorem arrayType_alike : g.lockstep.Alike (arrayType r) (arrayType r') := by
  unfold arrayType
  refine (expected_alike "A" _).bind fun _ => (consumed_alike "_").bind fun _ =>
    (peekedIs_alike isDigit 0).bind fun _ => .ite (fun _ => ?_) fun _ => .ite (fun _ => ?_)
      fun _ => ?_
  · exact Simulation.Alike.bind (.pure rfl) fun _ => h.type.bind fun _ => .pure rfl
  · exact (scanning_alike (unsigned_alike _)).bind fun _ => (expected_alike "_" _).bind fun _ =>
      Simulation.Alike.bind (.pure rfl) fun _ => h.type.bind fun _ => .pure rfl
  · exact h.expression.bind fun _ => (expected_alike "_" _).bind fun _ =>
      Simulation.Alike.bind (.pure rfl) fun _ => h.type.bind fun _ => .pure rfl

theorem vectorType_alike : g.lockstep.Alike (vectorType r) (vectorType r') := by
  unfold vectorType
  refine (expected_alike "Dv" _).bind fun _ => (consumed_alike "_").bind fun _ => .ite
    (fun _ => ?_) fun _ => ?_
  · exact h.expression.map.bind fun _ => (expected_alike "_" _).bind fun _ => h.type.bind fun _ =>
      .pure rfl
  · exact (scanning_alike (unsigned_alike _)).map.bind fun _ => (expected_alike "_" _).bind fun _ =>
      h.type.bind fun _ => .pure rfl

theorem typeAfterD_alike : g.lockstep.Alike (typeAfterD r) (typeAfterD r') := by
  unfold typeAfterD
  refine (peeked_alike 1).bind fun c => ?_
  split
  · exact remembered_alike ((code_alike _).bind fun _ => h.type.bind fun _ => .pure rfl)
  · exact remembered_alike (decltype_alike h)
  · exact remembered_alike (decltype_alike h)
  · exact remembered_alike (vectorType_alike h)
  · exact remembered_alike (functionType_alike h)
  · exact remembered_alike (functionType_alike h)
  · exact remembered_alike (functionType_alike h)
  · exact remembered_alike (functionType_alike h)
  · exact (code_alike _).bind fun _ => (scanning_alike (digits_alike _)).bind fun _ =>
      (expected_alike "_" _).bind fun _ => .pure rfl
  · exact builtinAfterD_alike

theorem typeAfterT_alike : g.lockstep.Alike (typeAfterT r) (typeAfterT r') := by
  unfold typeAfterT
  refine (peeked_alike 1).bind fun c => ?_
  split
  · exact remembered_alike ((code_alike _).bind fun _ => h.name.bind fun _ => .pure rfl)
  · refine remembered_alike (templateParam_alike.bind fun param => get_alike.bind
      fun before after hsame => (lookedAt_alike "I").bind fun _ => ?_)
    rw [hsame.templateArgsAllowed]
    exact .ite (fun _ => (remember_alike param).bind fun _ =>
      h.templateArgs.bind fun _ => .pure rfl)
      fun _ => .pure rfl

theorem typeAfterS_alike : g.lockstep.Alike (typeAfterS r) (typeAfterS r') := by
  unfold typeAfterS
  refine (peeked_alike 1).bind fun c => .ite (fun _ => remembered_alike h.name.map) fun _ => ?_
  refine substitution_alike.bind fun name => get_alike.bind fun before after hsame =>
    (lookedAt_alike "I").bind fun _ => ?_
  rw [hsame.templateArgsAllowed]
  exact .ite (fun _ => remembered_alike h.templateArgs.map) fun _ => .pure rfl

theorem type_alike : g.lockstep.Alike (type r) (type r') := by
  have wrapped : ∀ (letter production : String) (wrap : Node → Node), g.lockstep.Alike
      (remembered do
        expect letter production
        return wrap (← r.type)) (remembered do
        expect letter production
        return wrap (← r'.type)) := fun letter production wrap =>
    remembered_alike ((expected_alike letter production).bind fun _ =>
      h.type.bind fun _ => .pure rfl)
  have qualified : g.lockstep.Alike (remembered do
        let cv ← cvQualifiers
        qualify cv (← r.type)) (remembered do
        let cv ← cvQualifiers
        qualify cv (← r'.type)) :=
    remembered_alike ((scanning_alike cvQualifiers_alike).bind fun cv => h.type.bind fun inner =>
      qualify_alike cv inner)
  have named : g.lockstep.Alike (remembered (Named.node <$> r.name))
      (remembered (Named.node <$> r'.name)) := remembered_alike h.name.map
  unfold type
  refine (peeked_alike 0).bind fun c => ?_
  split
  · exact unexpected_alike _
  · exact qualified
  · exact qualified
  · exact qualified
  · exact remembered_alike ((expected_alike "U" _).bind fun _ =>
      (scanning_alike identifier_alike).bind fun _ => (templateArgs?_alike h).bind fun _ =>
        h.type.bind fun _ => .pure rfl)
  · exact wrapped "P" _ .pointerType
  · exact wrapped "R" _ (.referenceType · .lvalue)
  · exact wrapped "O" _ (.referenceType · .rvalue)
  · exact wrapped "C" _ .complexType
  · exact wrapped "G" _ .imaginaryType
  · exact remembered_alike (functionType_alike h)
  · exact remembered_alike (arrayType_alike h)
  · exact remembered_alike ((expected_alike "M" _).bind fun _ => h.type.bind fun _ =>
      h.type.bind fun _ => .pure rfl)
  · exact typeAfterT_alike h
  · exact typeAfterD_alike h
  · exact remembered_alike ((expected_alike "u" _).bind fun _ =>
      (scanning_alike identifier_alike).bind fun _ =>
        (templateArgs?_alike h).bind fun _ => .pure rfl)
  · exact typeAfterS_alike h
  · exact named
  · exact named
  · refine .ite (fun _ => named) fun _ => ?_
    split
    · exact (scanning_alike (next_alike _)).bind fun _ => .pure rfl
    · exact unexpected_alike _

end

end MangledNames.Grammar
