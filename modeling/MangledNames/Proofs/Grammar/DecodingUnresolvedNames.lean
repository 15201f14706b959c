import MangledNames.Proofs.Grammar.DecodingWords
import MangledNames.Proofs.Grammar.DecodingDeclarations
import MangledNames.Proofs.Grammar.Trial
set_option autoImplicit false

/-!
Reading the names of expressions, production by production.
-/

namespace MangledNames.Grammar

open Cursor

/-- What a name without a scope starts with. -/
inductive NameStart : List Char → Prop
  | digit {c : Char} {rest : List Char} : isDigit c = true → NameStart (c :: rest)
  | operator {rest : List Char} : NameStart ('o' :: 'n' :: rest)
  | destructor {rest : List Char} : NameStart ('d' :: 'n' :: rest)

theorem NameStart.append {text : List Char} (h : NameStart text) (rest : List Char) :
    NameStart (text ++ rest) := by
  cases h with
  | digit hc => exact .digit hc
  | operator => exact .operator
  | destructor => exact .destructor

theorem NameStart.head {text : List Char} (h : NameStart text) :
    ∃ c rest, text = c :: rest ∧ isWordStart c = true := by
  cases h with
  | digit hc => exact ⟨_,_,rfl,isWordStart_digit hc⟩
  | operator => exact ⟨_,_,rfl,rfl⟩
  | destructor => exact ⟨_,_,rfl,rfl⟩

theorem NameStart.no_scope {text : List Char} (h : NameStart text) {literal : List Char}
    (hl : literal.head? = some 's') : literal.isPrefixOf text = false := by
  obtain ⟨c,rest,rfl,hc⟩ : ∃ c rest, text = c :: rest ∧ 's' ≠ c := by
    cases h with
    | @digit c rest hc =>
      refine ⟨c,rest,rfl,?_⟩
      rintro rfl
      cases hc
    | operator => exact ⟨_,_,rfl,by decide⟩
    | destructor => exact ⟨_,_,rfl,by decide⟩
  cases literal with
  | nil => cases hl
  | cons x literal =>
    cases hl
    simp [List.isPrefixOf,hc]

section
variable {allowed : Bool} {r : Rules} {rest rest' rest'' : List Char}
  {table table' table'' : Substitutions} {name node : Node}

theorem withoutArguments_reads (h : "I".toList.isPrefixOf rest = false) :
    Reads allowed (r.withTemplateArgs name) rest table name rest table := by
  unfold Rules.withTemplateArgs Rules.templateArgs?
  refine Gives.bind ((scanned (lookingAt_gives h)).bind (.ifNeg Bool.false_ne_true .pure)) ?_
  exact .pure

theorem withArguments_reads {arguments : List Node}
    (h : Reads allowed r.templateArgs ('I' :: rest) table arguments rest' table') :
    Reads allowed (r.withTemplateArgs name) ('I' :: rest) table (.templateName name arguments) rest'
      table' := by
  unfold Rules.withTemplateArgs Rules.templateArgs?
  refine Gives.bind ((scanned (lookingAt_gives rfl)).bind (.ifPos rfl (h.map some))) ?_
  exact .pure

theorem simpleId_reads {identifier : String} (hidentifier : Identifier identifier)
    (h : Reads allowed (r.withTemplateArgs (.sourceName identifier)) rest table node rest' table') :
    Reads allowed (simpleId r) (identifierCode identifier ++ rest) table node rest' table' := by
  unfold simpleId
  exact (sourceName_reads hidentifier rest).bind h

theorem baseIdentifier_reads {c : Char} (hc : isDigit c = true)
    (h : Reads allowed (simpleId r) (c :: rest) table node rest' table') :
    Reads allowed (baseUnresolvedName r) (c :: rest) table node rest' table' := by
  have hdigit : (c :: rest)[0]?.any isDigit = true := hc
  unfold baseUnresolvedName
  exact (scanned (peekIs_gives hdigit)).bind h

theorem baseOperator_reads (o : Operator)
    (h : Reads allowed (r.withTemplateArgs (.operatorName o)) rest table node rest' table') :
    Reads allowed (baseUnresolvedName r) ('o' :: 'n' :: o.code.1 :: o.code.2 :: rest)
      table node rest' table' := by
  unfold baseUnresolvedName
  refine (scanned (peekIs_gives rfl)).bind ?_
  refine (scanned (consume_gives "on" _)).bind ?_
  exact (operatorName_reads o).bind h

theorem destructor_reads {c : Char} (hc : isDigit c = true)
    (h : Reads allowed (simpleId r) (c :: rest) table node rest' table') :
    Reads allowed (baseUnresolvedName r) ('d' :: 'n' :: c :: rest) table
      (.destructorName node) rest' table' := by
  have hdigit : (c :: rest)[0]?.any isDigit = true := hc
  unfold baseUnresolvedName
  refine (scanned (peekIs_gives rfl)).bind ((scanned (consume_refuses rfl)).bind ?_)
  refine (scanned (consume_gives "dn" _)).bind ((scanned (peekIs_gives hdigit)).bind ?_)
  exact h.bind .pure

theorem typeDestructor_reads {c : Char} (hc : isDigit c = false)
    (h : Reads allowed (unresolvedType r) (c :: rest) table node rest' table') :
    Reads allowed (baseUnresolvedName r) ('d' :: 'n' :: c :: rest) table
      (.destructorName node) rest' table' := by
  have hdigit : (c :: rest)[0]?.any isDigit = false := hc
  unfold baseUnresolvedName
  refine (scanned (peekIs_gives rfl)).bind ((scanned (consume_refuses rfl)).bind ?_)
  refine (scanned (consume_gives "dn" _)).bind ((scanned (peekIs_gives hdigit)).bind ?_)
  exact h.bind .pure

theorem unresolvedParam_reads {i : Nat} (h : i ≤ 10 ^ numberDigitsMax) (rest : List Char) :
    Reads allowed (unresolvedType r) (templateParamCode i ++ rest) table (.templateParam i) rest
      (table.append (.templateParam i)) := by
  have hread : Reads allowed (remembered templateParam) (templateParamCode i ++ rest) table
      (.templateParam i) rest (table.append (.templateParam i)) :=
    remembered_reads (templateParam_reads h rest)
  obtain ⟨c,code,hcode,_⟩ := templateParamCode_head i
  rw [hcode] at hread ⊢
  unfold unresolvedType
  exact (scanned (peek_gives 0)).bind hread

theorem unresolvedReference_reads {i : Nat} (h : table.entries[i]? = some node)
    (rest : List Char) :
    Reads allowed (unresolvedType r) (backReference i ++ rest) table node rest table := by
  have hread : Reads allowed substitution (backReference i ++ rest) table node rest table :=
    substitution_reads h rest
  obtain ⟨c,code,hcode,_⟩ := backReference_head i
  rw [hcode] at hread ⊢
  unfold unresolvedType
  exact (scanned (peek_gives 0)).bind hread

theorem qualifiedTo_reads {qualifier : Node} {levels : List Node}
    (hlevels : Items allowed (simpleId r) (fun _ => StartsWith isDigit) rest table levels
      ('E' :: rest') table')
    (h : Reads allowed (baseUnresolvedName r) rest' table' node rest'' table'') :
    Reads allowed (qualifiedTo r qualifier) rest table
      (.nestedName (levels.foldl .nestedName qualifier) node) rest'' table'' := by
  unfold qualifiedTo
  exact (itemsToE_reads hlevels fun _ _ hlevel => hlevel.head_ne rfl).bind (h.bind .pure)

/-- Levels that the text fits are the same on trial and outside. -/
theorem qualifierLevels_reads
    (h : Reads allowed (terminatedLevels r) rest table node rest' table') :
    Reads allowed (qualifierLevels r) rest table node rest' table' := by
  refine ⟨fun context hc => ?_⟩
  cases hspeculative : context.speculative with
  | true =>
    rw [qualifierLevels_on_trial hspeculative]
    exact h.results context hc
  | false =>
    obtain ⟨after,hread,hafter⟩ := h.results { context with speculative := true }
      ⟨hc.cursor,hc.substitutions,hc.templateArgsAllowed⟩
    refine ⟨{ after with speculative := false },?_,hafter.cursor,hafter.substitutions,
      hafter.templateArgsAllowed⟩
    rw [qualifierLevels_off_trial hspeculative]
    unfold triedLevels
    rw [bind_apply,trial_of_ok hread]
    rfl

theorem unscoped_reads (hstart : NameStart rest)
    (h : Reads allowed (baseUnresolvedName r) rest table node rest' table') :
    Reads allowed (scopedName r) rest table node rest' table' := by
  unfold scopedName
  refine (scanned (consume_refuses (hstart.no_scope rfl))).bind ?_
  exact (scanned (consume_refuses (hstart.no_scope rfl))).bind h

/-- A name in a type, which no `N` announces. -/
theorem inType_reads {qualifier : Node} {c : Char} (hc : isDigit c = false ∧ c ≠ 'N')
    (hqualifier : Reads allowed (qualifierType r) (c :: rest) table qualifier rest' table')
    (h : Reads allowed (baseUnresolvedName r) rest' table' node rest'' table'') :
    Reads allowed (scopedName r) ('s' :: 'r' :: c :: rest) table (.nestedName qualifier node) rest''
      table'' := by
  have hlevels : "srN".toList.isPrefixOf ('s' :: 'r' :: c :: rest) = false := by
    simp [List.isPrefixOf,Ne.symm hc.2]
  have hdigit : (c :: rest)[0]?.any isDigit = false := hc.1
  unfold scopedName
  refine (scanned (consume_refuses hlevels)).bind ((scanned (consume_gives "sr" _)).bind ?_)
  refine (scanned (peekIs_gives hdigit)).bind ?_
  exact hqualifier.bind (h.bind .pure)

theorem inTypeLevels_reads {qualifier : Node} {name : Node}
    (hqualifier : Reads allowed (qualifierType r) rest table qualifier rest' table')
    (h : Reads allowed (qualifiedTo r qualifier) rest' table' name rest'' table'') :
    Reads allowed (scopedName r) ('s' :: 'r' :: 'N' :: rest) table name rest'' table'' := by
  unfold scopedName
  exact (scanned (consume_gives "srN" rest)).bind (hqualifier.bind h)

theorem inLevels_reads {c : Char} (hc : isDigit c = true)
    (h : Reads allowed (terminatedLevels r) (c :: rest) table node rest' table') :
    Reads allowed (scopedName r) ('s' :: 'r' :: c :: rest) table node rest' table' := by
  have hlevels : "srN".toList.isPrefixOf ('s' :: 'r' :: c :: rest) = false := by
    have hne : 'N' ≠ c := by
      rintro rfl
      cases hc
    simp [List.isPrefixOf,hne]
  have hdigit : (c :: rest)[0]?.any isDigit = true := hc
  unfold scopedName
  refine (scanned (consume_refuses hlevels)).bind ((scanned (consume_gives "sr" _)).bind ?_)
  exact (scanned (peekIs_gives hdigit)).bind (qualifierLevels_reads h)

theorem unresolvedName_reads (globalScope : Bool)
    (h : Reads allowed (scopedName r) rest table name rest' table') :
    Reads allowed (unresolvedName r globalScope) rest table (.unresolvedName name globalScope) rest'
      table' := by
  unfold unresolvedName
  exact h.bind .pure

end

end MangledNames.Grammar
