import MangledNames.Proofs.Grammar.AdvancingEncodings
import MangledNames.Proofs.Grammar.CodeShapes
import MangledNames.Proofs.Grammar.DecodingClauses
import MangledNames.Proofs.Grammar.Outcomes
set_option autoImplicit false

/-!
A single level of qualifiers, as old compilers write it, in front of a list of types: where the
trial of terminated levels takes the types for a name, and where it is given up.
-/

namespace MangledNames.Grammar

open Cursor

/-- Types spelled in full that read like a name behind qualifiers: an identifier, an operator or
the name of a destructor. -/
inductive NameBegins : List Char → Prop
  | identifier {c : Char} {rest : List Char} : isDigit c = true → NameBegins (c :: rest)
  | operator (o : Operator) {rest : List Char} :
    NameBegins ('o' :: 'n' :: o.code.1 :: o.code.2 :: rest)
  | literalOperator {c : Char} {rest : List Char} : isDigit c = true →
    NameBegins ('o' :: 'n' :: 'l' :: 'i' :: c :: rest)
  | destructor {c : Char} {rest : List Char} : isDigit c = true →
    NameBegins ('d' :: 'n' :: c :: rest)
  | typeDestructor {rest : List Char} : NameBegins ('d' :: 'n' :: 'T' :: rest)

section
variable {allowed : Bool} {r : Rules} {rest rest' : List Char} {table table' : Substitutions}
  {a x : String}

theorem head_no_digit (before : List Char) (h : ¬NameBegins (before ++ rest))
    (hdigit : ∀ {c : Char} {more : List Char}, isDigit c = true →
      NameBegins (before ++ c :: more)) :
    rest.head?.any isDigit = false := by
  cases rest with
  | nil => rfl
  | cons c more => exact Bool.eq_false_iff.mpr fun hc => h (hdigit hc)

theorem operatorName_fails (hspelled : SpelledTypes rest)
    (hname : ¬NameBegins ('o' :: 'n' :: rest)) :
    Fails (operatorName r) (At allowed rest table) := by
  unfold operatorName
  refine here_then_fails fun start _ => ?_
  match rest with
  | [] => exact (scanning_fails (takeCode_fails _ (by simp))).bind
  | [c] => exact (scanning_fails (takeCode_fails _ (by simp))).bind
  | c :: d :: rest =>
    refine (scanned (takeCode_gives _ c d rest)).fails ?_
    have hvoid : c ≠ 'v' := hspelled.begins.1
    split
    · rename_i hcode
      cases hcode
      exact absurd rfl (hspelled.after_letter rfl (by decide)).begins.1
    · rename_i hcode
      cases hcode
      have hdigit : rest.head?.any isDigit = false :=
        head_no_digit ['o','n','l','i'] hname .literalOperator
      exact Fails.map (Fails.bind (scanning_fails (identifier_fails hdigit))) _
    · have hvendor :
        ¬(((c,d) : Code).1 == 'v' && isDigit ((c,d) : Code).2) = true := by simp [hvoid]
      rw [if_neg hvendor]
      cases hoperator : Operator.ofCode? (c,d) with
      | none => exact fail_fails rfl
      | some o =>
        have hcode := Operator.code_of_ofCode? hoperator
        refine absurd ?_ hname
        have hbegins : NameBegins ('o' :: 'n' :: o.code.1 :: o.code.2 :: rest) := .operator o
        rwa [hcode] at hbegins

theorem decltype_fails (h : ∀ literal ∈ ["Dt","DT"], literal.toList.isPrefixOf rest = false) :
    Fails (decltype r) (At allowed rest table) := by
  unfold decltype
  exact (scanned (consumeAny_refuses h)).fails (unexpected_fails _).bind

theorem unresolvedType_fails (hspelled : SpelledTypes rest)
    (hname : ¬NameBegins ('d' :: 'n' :: rest)) :
    Fails (unresolvedType r) (At allowed rest table) := by
  have begins : ∀ {c : Char}, rest[0]? = some c → ∃ more, rest = c :: more :=
    fun hhead => List.head?_eq_some_iff.mp (List.head?_eq_getElem?.trans hhead)
  unfold unresolvedType
  refine (scanned (peek_gives 0)).fails ?_
  split
  · rename_i hhead
    obtain ⟨more,rfl⟩ := begins hhead
    exact absurd .typeDestructor hname
  · rename_i hhead
    obtain ⟨more,rfl⟩ := begins hhead
    obtain ⟨d,tail,rfl,ht,hT⟩ := hspelled.begins.2.2 rfl
    refine Fails.bind (decltype_fails ?_)
    simp [List.isPrefixOf,Ne.symm ht,Ne.symm hT]
  · rename_i hhead
    obtain ⟨more,rfl⟩ := begins hhead
    exact absurd rfl hspelled.begins.2.1
  · exact unexpected_fails _

/-- A list of types that reads like no name is none. -/
theorem baseUnresolvedName_fails (hspelled : SpelledTypes rest) (hname : ¬NameBegins rest) :
    Fails (baseUnresolvedName r) (At allowed rest table) := by
  have hdigit : rest[0]?.any isDigit = false := by
    rw [← List.head?_eq_getElem?]
    exact head_no_digit [] hname .identifier
  unfold baseUnresolvedName
  refine (scanned (peekIs_gives hdigit)).fails ?_
  by_cases hon : "on".toList.isPrefixOf rest = true
  · obtain ⟨more,rfl⟩ := List.isPrefixOf_iff_prefix.mp hon
    have hmore : SpelledTypes more := hspelled.after_letters (by decide) (by decide)
    refine (scanned (consume_gives "on" more)).fails ?_
    exact (operatorName_fails hmore hname).bind
  · refine (scanned (consume_refuses (Bool.eq_false_iff.mpr hon))).fails ?_
    by_cases hdn : "dn".toList.isPrefixOf rest = true
    · obtain ⟨more,rfl⟩ := List.isPrefixOf_iff_prefix.mp hdn
      have hmore : SpelledTypes more := hspelled.after_letters (by decide) (by decide)
      have hclass : more[0]?.any isDigit = false := by
        rw [← List.head?_eq_getElem?]
        exact head_no_digit ['d','n'] hname .destructor
      refine (scanned (consume_gives "dn" more)).fails ?_
      refine (scanned (peekIs_gives hclass)).fails ?_
      exact (unresolvedType_fails hmore hname).bind
    · refine (scanned (consume_refuses (Bool.eq_false_iff.mpr hdn))).fails ?_
      exact unexpected_fails _

/-- The name of `x` in `a`, each of them as it is printed -/
def levelName (a x : String) : Node :=
  .nestedName (.sourceName (properText a)) (.sourceName (properText x))

theorem level_reads (ha : Nameable a) (hrest : "I".toList.isPrefixOf rest = false) :
    Reads allowed (simpleId r) (identifierCode a ++ rest) table (.sourceName (properText a)) rest
      table := by
  unfold simpleId
  exact (printedName_reads ha rest).bind (withoutArguments_reads hrest)

theorem qualifier_reads (ha : Nameable a) :
    Reads allowed (simpleId r) (identifierCode a ++ (identifierCode x ++ rest)) table
      (.sourceName (properText a)) (identifierCode x ++ rest) table :=
  level_reads ha ((identifierCode_starts x rest).no_literal rfl)

theorem levelsToE_reads (hx : Nameable x) :
    Reads allowed (itemsToE (simpleId r)) (identifierCode x ++ 'E' :: rest) table
      [.sourceName (properText x)] rest table := by
  have hstarts := identifierCode_starts x ('E' :: rest)
  have hless := (identifierCode_starts x []).length_lt ('E' :: rest)
  rw [List.append_nil] at hless
  have hlevels :
    Items allowed (simpleId r) (fun _ => StartsWith isDigit) (identifierCode x ++ 'E' :: rest)
      table [.sourceName (properText x)] ('E' :: rest) table :=
    .cons hstarts (level_reads hx rfl) hless (.nil _ _)
  exact itemsToE_reads hlevels fun _ _ hlevel => hlevel.head_ne rfl

theorem terminatedLevels_fails (ha : Nameable a) (hx : Nameable x)
    (h : Fails (baseUnresolvedName r) (At allowed rest table)) :
    Fails (terminatedLevels r)
      (At allowed (identifierCode a ++ (identifierCode x ++ 'E' :: rest)) table) := by
  unfold terminatedLevels qualifiedTo
  exact (qualifier_reads ha).fails ((levelsToE_reads hx).fails h.bind)

theorem terminatedLevels_reads {node : Node} (ha : Nameable a) (hx : Nameable x)
    (h : Reads allowed (baseUnresolvedName r) rest table node rest' table') :
    Reads allowed (terminatedLevels r) (identifierCode a ++ (identifierCode x ++ 'E' :: rest)) table
      (.nestedName (levelName a x) node) rest' table' := by
  unfold terminatedLevels qualifiedTo
  exact (qualifier_reads ha).bind ((levelsToE_reads hx).bind (h.bind .pure))

theorem singleLevel_reads (ha : Nameable a) (hx : Nameable x) :
    Reads allowed (singleLevel r) (identifierCode a ++ (identifierCode x ++ 'E' :: rest)) table
      (levelName a x) ('E' :: rest) table := by
  have hbase : Reads allowed (baseUnresolvedName r) (identifierCode x ++ 'E' :: rest) table
      (.sourceName (properText x)) ('E' :: rest) table := by
    obtain ⟨c,digits,hc,hcode⟩ := identifierCode_head x
    have hlast : Reads allowed (simpleId r) (identifierCode x ++ 'E' :: rest) table
        (.sourceName (properText x)) ('E' :: rest) table := level_reads hx rfl
    rw [hcode] at hlast ⊢
    exact baseIdentifier_reads hc hlast
  unfold singleLevel
  exact (qualifier_reads ha).bind (hbase.bind .pure)

end

/-! Types that read like a name are taken for one. -/

section
variable {r : Rules} {text more others rest : List Char} {table : Substitutions}

theorem argumentsShape_reads (h : ArgumentsShape more) (hothers : others.head? ≠ some 'I')
    (table : Substitutions) : ∃ n, ∀ k, n ≤ k → ∀ name, ∃ node table',
      Reads true ((Rules.levels k).withTemplateArgs name) (more ++ others) table node
      others table' := by
  cases h with
  | none =>
    have hI : "I".toList.isPrefixOf others = false := by
      cases others with
      | nil => rfl
      | cons c others =>
        have hc : c ≠ 'I' := by simpa using hothers
        simp [List.isPrefixOf,Ne.symm hc]
    exact ⟨0,fun k _ name => ⟨name,table,withoutArguments_reads hI⟩⟩
  | @some arguments harguments =>
    refine ⟨Node.typesLevels arguments + 2,fun k hk name => ?_⟩
    obtain ⟨j,rfl⟩ := Nat.exists_eq_add_of_le' (show 2 ≤ k by omega)
    obtain ⟨table',hreading⟩ := harguments.reads_inFull true (n := j)
      (Nat.le_of_add_le_add_right hk) table
    have hlist : Reads true (Rules.levels (j + 2)).templateArgs
        ('I' :: (Node.typesCode arguments ++ 'E' :: others)) table arguments others table' :=
      arguments_reads hreading others
    refine ⟨.templateName name arguments,table',?_⟩
    simpa using withArguments_reads hlist

/-- An identifier at the head of a list of types, with the arguments that it may have. -/
theorem SpelledTypes.simpleId_reads {c : Char} (h : SpelledTypes (c :: rest))
    (hc : isDigit c = true) (table : Substitutions) : ∃ n, ∀ k, n ≤ k → ∃ node rest' table',
      Reads true (simpleId (Rules.levels k)) (c :: rest) table node rest' table' := by
  obtain ⟨name,code,others,hname,hcode,hothers,htext⟩ := h.className hc
  obtain ⟨n,hreads⟩ := argumentsShape_reads hcode hothers.head_ne_arguments table
  refine ⟨n,fun k hk => ?_⟩
  obtain ⟨node,table',hread⟩ := hreads k hk (.sourceName name)
  rw [htext]
  exact ⟨node,others,table',Grammar.simpleId_reads hname hread⟩

theorem literalOperator_reads {name : String} {node : Node} {rest' : List Char}
    {table' : Substitutions} (hname : Identifier name)
    (h : Reads true (r.withTemplateArgs (.literalOperatorName name)) rest table node rest' table') :
    Reads true (baseUnresolvedName r)
      ('o' :: 'n' :: 'l' :: 'i' :: (identifierCode name ++ rest)) table node rest' table' := by
  have hproper : Reads true properName (identifierCode name ++ rest) table name rest table := by
    have hread :
        Reads true properName (identifierCode name ++ rest) table (properText name) rest table :=
      properName_reads hname.nameable rest
    rwa [hname.properText_eq] at hread
  have hoperator : Reads true (operatorName r) ('l' :: 'i' :: (identifierCode name ++ rest)) table
      ⟨.literalOperatorName name,{}⟩ rest table := by
    unfold operatorName
    refine here_then fun start _ => (scanned (takeCode_gives _ 'l' 'i' _)).bind ?_
    exact hproper.bind .pure
  unfold baseUnresolvedName
  refine (scanned (peekIs_gives rfl)).bind ((scanned (consume_gives "on" _)).bind ?_)
  exact hoperator.bind h

theorem operator_second (o : Operator) : isDigit o.code.2 = false := by
  cases o <;> decide

/-- With levels enough for the arguments that it may have, the name is read. -/
theorem NameBegins.reads (h : NameBegins text) (hspelled : SpelledTypes text)
    (table : Substitutions) :
    ∃ n, ∀ k, n ≤ k → ∃ node rest table',
      Reads true (baseUnresolvedName (Rules.levels k)) text table node rest table' := by
  cases h with
  | identifier hc =>
    obtain ⟨n,hreads⟩ := hspelled.simpleId_reads hc table
    refine ⟨n,fun k hk => ?_⟩
    obtain ⟨node,rest,table',hread⟩ := hreads k hk
    exact ⟨node,rest,table',baseIdentifier_reads hc hread⟩
  | @operator o rest =>
    have hcode : SpelledTypes (o.code.1 :: o.code.2 :: rest) :=
      hspelled.after_letters (by decide) (by decide)
    have hrest := hcode.third_ne_arguments (operator_isLower o) (operator_second o)
    obtain ⟨n,hreads⟩ := argumentsShape_reads .none hrest table
    refine ⟨n,fun k hk => ?_⟩
    obtain ⟨node,table',hread⟩ := hreads k hk (.operatorName o)
    exact ⟨node,rest,table',baseOperator_reads o hread⟩
  | @literalOperator c rest hc =>
    have hletters : SpelledTypes ('l' :: 'i' :: c :: rest) :=
      hspelled.after_letters (by decide) (by decide)
    have hcode : SpelledTypes (c :: rest) := hletters.after_letters (by decide) (by decide)
    obtain ⟨name,code,others,hname,harguments,hothers,htext⟩ := hcode.className hc
    obtain ⟨n,hreads⟩ := argumentsShape_reads harguments hothers.head_ne_arguments table
    refine ⟨n,fun k hk => ?_⟩
    obtain ⟨node,table',hread⟩ := hreads k hk (.literalOperatorName name)
    rw [htext]
    exact ⟨node,others,table',literalOperator_reads hname hread⟩
  | @destructor c rest hc =>
    have hcode : SpelledTypes (c :: rest) := hspelled.after_letters (by decide) (by decide)
    obtain ⟨n,hreads⟩ := hcode.simpleId_reads hc table
    refine ⟨n,fun k hk => ?_⟩
    obtain ⟨node,rest,table',hread⟩ := hreads k hk
    exact ⟨.destructorName node,rest,table',destructor_reads hc hread⟩
  | @typeDestructor rest =>
    have hcode : SpelledTypes ('T' :: rest) := hspelled.after_letters (by decide) (by decide)
    obtain ⟨i,others,hi,htext⟩ := hcode.templateParam
    refine ⟨0,fun k _ =>
      ⟨.destructorName (.templateParam i),others,table.append (.templateParam i),?_⟩⟩
    have hread : Reads true (unresolvedType (Rules.levels k)) (templateParamCode i ++ others) table
        (.templateParam i) others (table.append (.templateParam i)) :=
      unresolvedParam_reads hi others
    rw [← htext] at hread
    exact typeDestructor_reads rfl hread

end

section
variable {allowed : Bool} {n : Nat} {rest rest' : List Char} {table table' : Substitutions}
  {a x : String} {node : Node}

/-- What moves on leaves it at that when no trial is going on. -/
theorem Reads.offTrial {α : Type} {m : Parser α} {value : α} {levels k : Nat}
    (h : Reads allowed m rest table value rest' table') (hm : Advances levels k m) :
    Gives m (OffTrial allowed rest table) value (OffTrial allowed rest' table') := by
  refine ⟨fun context hc => ?_⟩
  obtain ⟨after,hrun,hafter⟩ := h.results context hc.toAt
  have hends := hm.ends context trivial
  rw [hrun] at hends
  exact ⟨after,hrun,hafter,hends.1.speculative.trans hc.speculative⟩

/-- Without a trial around, a single level is read where a trial is given up. -/
theorem qualifierLevels_offTrial
    (htrial : Fails (terminatedLevels (Rules.levels n)) (At allowed rest table))
    (h : Reads allowed (singleLevel (Rules.levels n)) rest table node rest' table') :
    Gives (qualifierLevels (Rules.levels n)) (OffTrial allowed rest table) node
      (At allowed rest' table') := by
  refine ⟨fun context hc => ?_⟩
  obtain ⟨_,after,hfails,e,rfl,he⟩ := htrial.results { context with speculative := true }
    ⟨hc.cursor,hc.substitutions,hc.templateArgsAllowed⟩
  have hends := (terminatedLevels_advances (Rules.levels_advance n).paid).ends
    { context with speculative := true } trivial
  rw [hfails] at hends
  rw [qualifierLevels_off_trial hc.speculative,
    triedLevels_of_malformed hc.speculative he hfails hends.1]
  exact h.results context hc.toAt

def singleLevelType (a x : String) : Node :=
  .decltypeType (.unresolvedName (levelName a x) false)

def singleLevelCode (a x : String) : List Char :=
  'D' :: 'T' :: 's' :: 'r' :: (identifierCode a ++ (identifierCode x ++ ['E']))

theorem scopedName_offTrial
    (h : Gives (qualifierLevels (Rules.levels n))
      (OffTrial allowed (identifierCode a ++ rest) table) node (At allowed rest' table')) :
    Gives (scopedName (Rules.levels n))
      (OffTrial allowed ('s' :: 'r' :: (identifierCode a ++ rest)) table)
      node (At allowed rest' table') := by
  have hdigit : (identifierCode a ++ rest)[0]?.any isDigit = true := by
    rw [← List.head?_eq_getElem?]
    exact identifierCode_starts a rest
  have hlevels : "srN".toList.isPrefixOf ('s' :: 'r' :: (identifierCode a ++ rest)) = false := by
    have hN : ['N'].isPrefixOf (identifierCode a ++ rest) = false :=
      (identifierCode_starts a rest).no_literal rfl
    exact hN
  unfold scopedName
  refine (scanned_offTrial (consume_refuses hlevels)).bind ?_
  refine (scanned_offTrial (consume_gives "sr" _)).bind ?_
  exact (scanned_offTrial (peekIs_gives hdigit)).bind h

theorem singleLevelCode_append (a x : String) (rest : List Char) : singleLevelCode a x ++ rest =
    'D' :: 'T' :: 's' :: 'r' :: (identifierCode a ++ (identifierCode x ++ 'E' :: rest)) := by
  simp [singleLevelCode]

theorem singleLevelCode_opens :
    Gives (consumeAny ["Dt","DT"]) (Cursor.At (singleLevelCode a x ++ rest)) true
      (Cursor.At ('s' :: 'r' :: (identifierCode a ++ (identifierCode x ++ 'E' :: rest)))) := by
  rw [singleLevelCode_append]
  exact consumeAny_second rfl

theorem singleLevelType_offTrial (ha : Nameable a) (hx : Nameable x)
    (h : ∀ table, Fails (baseUnresolvedName (Rules.levels n)) (At allowed rest table)) :
    Gives (Rules.levels (n + 3)).type (OffTrial allowed (singleLevelCode a x ++ rest) table)
      (singleLevelType a x) (At allowed rest (table.append (singleLevelType a x))) := by
  have hlevels :=
    qualifierLevels_offTrial (terminatedLevels_fails ha hx (h table)) (singleLevel_reads ha hx)
  have hname : Gives ((Rules.levels (n + 1)).unresolvedName false)
      (OffTrial allowed
        ('s' :: 'r' :: (identifierCode a ++ (identifierCode x ++ 'E' :: rest))) table)
      (.unresolvedName (levelName a x) false)
      (At allowed ('E' :: rest) table) := by
    refine nested_offTrial ?_
    unfold unresolvedName
    exact (scopedName_offTrial hlevels).bind .pure
  have hexpression : Gives (Rules.levels (n + 2)).expression
      (OffTrial allowed
        ('s' :: 'r' :: (identifierCode a ++ (identifierCode x ++ 'E' :: rest))) table)
      (.unresolvedName (levelName a x) false)
      (At allowed ('E' :: rest) table) := by
    refine nested_offTrial ?_
    unfold expression
    refine here_then_offTrial fun start hstart => ?_
    rw [hstart]
    exact hname
  have hdecltype : Gives (decltype (Rules.levels (n + 2)))
      (OffTrial allowed (singleLevelCode a x ++ rest) table) (singleLevelType a x)
      (At allowed rest table) := by
    unfold decltype
    refine (scanned_offTrial singleLevelCode_opens).bind (hexpression.bind ?_)
    exact (scanned (expect_gives "E" _ rest)).bind .pure
  refine nested_offTrial ?_
  unfold type
  rw [singleLevelCode_append] at hdecltype ⊢
  refine (scanned_offTrial (peek_gives 0)).bind ((scanned_offTrial (peek_gives 1)).bind ?_)
  exact hdecltype.bind ((remember_reads _).bind .pure)

/-- Where what follows is read as a name, the levels are `a` and `x`, and the type is another
one. -/
theorem singleLevelType_yields (ha : Nameable a) (hx : Nameable x)
    (h : Reads allowed (baseUnresolvedName (Rules.levels n)) rest table node rest' table') :
    Yields (Rules.levels (n + 3)).type (At allowed (singleLevelCode a x ++ rest) table)
      (· ≠ singleLevelType a x) := by
  have hscoped : Reads allowed (scopedName (Rules.levels n))
      ('s' :: 'r' :: (identifierCode a ++ (identifierCode x ++ 'E' :: rest))) table
      (.nestedName (levelName a x) node) rest' table' := by
    have hlevels := terminatedLevels_reads ha hx h
    obtain ⟨c,digits,hc,hcode⟩ := identifierCode_head a
    rw [hcode] at hlevels ⊢
    exact inLevels_reads hc hlevels
  have hexpression : Reads allowed (Rules.levels (n + 2)).expression
      ('s' :: 'r' :: (identifierCode a ++ (identifierCode x ++ 'E' :: rest))) table
      (.unresolvedName (.nestedName (levelName a x) node) false) rest'
      table' :=
    nested_reads
      (nameExpression_reads (.inr ⟨_,rfl⟩) (nested_reads (unresolvedName_reads false hscoped)))
  have hdecltype : Yields (decltype (Rules.levels (n + 2)))
      (At allowed (singleLevelCode a x ++ rest) table) (· ≠ singleLevelType a x) := by
    unfold decltype
    refine (scanned singleLevelCode_opens).yields (hexpression.yields ?_)
    refine Yields.bind .any fun _ _ => .pure fun hsame => ?_
    cases hsame
  refine nested_yields ?_ fun _ => At.deeper
  unfold type
  rw [singleLevelCode_append] at hdecltype ⊢
  refine (scanned (peek_gives 0)).yields ((scanned (peek_gives 1)).yields ?_)
  exact hdecltype.bind fun type htype => .bind .any fun _ _ => .pure htype

end

end MangledNames.Grammar
