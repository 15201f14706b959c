import MangledNames.Proofs.Grammar.DecodingExpressions
import MangledNames.Proofs.Grammar.DecodingSpellings
set_option autoImplicit false

/-!
Whatever way an expression is spelled, reading the text gives the expression and the table that
spelling it left.
-/

namespace MangledNames.Grammar

open Cursor

/-- Arguments are types, literals or expressions. -/
def isArgumentStart (c : Char) : Bool := isTypeStart c || c == 'X' || c == 'L'

/-- An initializer is a list in parentheses or braces, or there is none. -/
def isInitializerStart (c : Char) : Bool := c == 'p' || c == 'i' || c == 'E'

/-- A type that qualifies a name is a template parameter or a reference back. -/
def isQualifierStart (c : Char) : Bool := c == 'T' || c == 'S'

/-- How the text of a clause can start. Arguments may follow a name or not. -/
def Clause.Starts (text : List Char) : Clause → Prop
  | .expression _ => StartsWith isExpressionStart text
  | .expressions _ => text = [] ∨ StartsWith isExpressionStart text
  | .literal _ => ∃ rest, text = 'L' :: rest
  | .initializer _ => StartsWith isInitializerStart text
  | .scoped _ => NameStart text ∨ ∃ rest, text = 's' :: 'r' :: rest
  | .base _ => NameStart text
  | .simpleId _ => StartsWith isDigit text
  | .simpleIds _ => text = [] ∨ StartsWith isDigit text
  | .qualifier _ => StartsWith isQualifierStart text
  | .applied _ _ => True
  | .arguments _ => text = [] ∨ StartsWith isArgumentStart text

theorem lower_starts {c : Char} (hc : isLower c = true) (rest : List Char) :
    StartsWith isExpressionStart (c :: rest) := by
  simp [StartsWith,isExpressionStart,isWordStart_lower hc]

theorem operatorCode_starts (o : Operator) (rest : List Char) :
    StartsWith isExpressionStart (o.code.1 :: rest) := lower_starts (operator_isLower o) rest

theorem FunctionParamCode.starts {number : Option Nat} {text : List Char}
    (h : FunctionParamCode number text) : StartsWith isExpressionStart text := by
  cases h with
  | own => exact lower_starts rfl _
  | outer => exact lower_starts rfl _

theorem templateParamCode_starts (i : Nat) :
    StartsWith isExpressionStart (templateParamCode i) := by
  obtain ⟨c,code,hcode,_⟩ := templateParamCode_head i
  rw [hcode]
  rfl

section
variable {code : Code}

theorem castCode_starts {keyword : CastKeyword} (h : CastKeyword.ofCode? code = some keyword)
    (rest : List Char) : StartsWith isExpressionStart (code.1 :: rest) := by
  unfold CastKeyword.ofCode? at h
  split at h
  all_goals
    cases h
    try exact lower_starts rfl _

theorem typeOperatorCode_starts {operator : TypeOperator}
    (h : TypeOperator.ofCode? code = some operator) (rest : List Char) :
    StartsWith isExpressionStart (code.1 :: rest) := by
  unfold TypeOperator.ofCode? at h
  split at h
  all_goals
    cases h
    try exact lower_starts rfl _

theorem expressionOperatorCode_starts {operator : ExpressionOperator}
    (h : ExpressionOperator.ofCode? code = some operator) (rest : List Char) :
    StartsWith isExpressionStart (code.1 :: rest) := by
  unfold ExpressionOperator.ofCode? at h
  split at h
  all_goals
    cases h
    try exact lower_starts rfl _

end

/-- `gs` may stand in front of what starts an expression itself. -/
theorem globalScope_starts {text : List Char} (globalScope : Bool)
    (h : StartsWith isExpressionStart text) :
    StartsWith isExpressionStart ((if globalScope then ['g','s'] else []) ++ text) := by
  cases globalScope with
  | true => exact lower_starts rfl _
  | false => exact h

theorem identifierCode_starts (name : String) (rest : List Char) :
    StartsWith isDigit (identifierCode name ++ rest) := by
  obtain ⟨c,code,hc,hcode⟩ := identifierCode_head name
  rw [hcode]
  exact hc

theorem argument_starts {type : Node} {text : List Char} (h : Opens type text) :
    StartsWith isArgumentStart text := by
  cases text with
  | nil => exact h.elim
  | cons c text => simp [StartsWith,isArgumentStart,h.1]

theorem Expresses.starts {n : Nat} {table table' : Substitutions} {clause : Clause}
    {text : List Char} (h : Expresses n table clause text table') : clause.Starts text := by
  induction h with
  | bool => exact ⟨_,rfl⟩
  | nullptr h => rcases List.mem_pair.mp h with rfl | rfl <;> exact ⟨_,rfl⟩
  | integer => exact ⟨_,rfl⟩
  | float => exact ⟨_,rfl⟩
  | literal _ ih =>
    obtain ⟨rest,rfl⟩ := ih
    rfl
  | templateParam => exact templateParamCode_starts _
  | functionParam h => exact h.starts
  | unary => exact operatorCode_starts _ _
  | afterOperand => exact operatorCode_starts _ _
  | beforeOperand => exact operatorCode_starts _ _
  | binary => exact operatorCode_starts _ _
  | cast h => exact castCode_starts h _
  | typeOperator h => exact typeOperatorCode_starts h _
  | expressionOperator h => exact expressionOperatorCode_starts h _
  | new => exact globalScope_starts _ (lower_starts rfl _)
  | delete => exact globalScope_starts _ (lower_starts rfl _)
  | member h => cases h <;> exact lower_starts rfl _
  | unresolved globalScope _ ih =>
    refine globalScope_starts globalScope ?_
    rcases ih with hname | ⟨rest,rfl⟩
    · obtain ⟨c,rest,rfl,hc⟩ := hname.head
      simp [StartsWith,isExpressionStart,hc]
    · exact lower_starts rfl _
  | noExpressions => exact .inl rfl
  | moreExpressions _ _ ih _ => exact .inr (StartsWith.append ih _)
  | noInitializer => rfl
  | initializer => rfl
  | braces => rfl
  | unscoped _ ih => exact .inl ih
  | inType => exact .inr ⟨_,rfl⟩
  | inTypeLevels => exact .inr ⟨_,rfl⟩
  | inLevels => exact .inr ⟨_,rfl⟩
  | identifier _ ih =>
    obtain ⟨c,rest,rfl,hc⟩ := StartsWith.exists_cons ih
    exact .digit hc
  | operator => exact .operator
  | destructor => exact .destructor
  | paramDestructor => exact .destructor
  | referredDestructor => exact .destructor
  | simpleId => exact identifierCode_starts _ _
  | noSimpleIds => exact .inl rfl
  | moreSimpleIds _ _ ih _ => exact .inr (StartsWith.append ih _)
  | @paramQualifier _ _ _ text i =>
    obtain ⟨c,code,hcode,_⟩ := templateParamCode_head i
    rw [hcode]
    rfl
  | @referredQualifier _ _ _ text i =>
    obtain ⟨c,code,hcode,_⟩ := backReference_head i
    rw [hcode]
    rfl
  | bare => exact trivial
  | applied => exact trivial
  | noArguments => exact .inl rfl
  | typeArgument h => exact .inr ((argument_starts h.starts).append _)
  | literalArgument _ _ ih _ =>
    obtain ⟨rest,rfl⟩ := ih
    exact .inr rfl
  | expressionArgument => exact .inr rfl
  | conditional => exact lower_starts rfl _
  | call => exact lower_starts rfl _
  | conversion => exact lower_starts rfl _
  | conversionOfList => exact lower_starts rfl _
  | initList => exact lower_starts rfl _
  | typedInitList => exact lower_starts rfl _
  | sizeofTemplateParam => exact lower_starts rfl _
  | sizeofFunctionParam => exact lower_starts rfl _
  | memberPointer => exact lower_starts rfl _
  | packExpansion => exact lower_starts rfl _
  | throw => exact lower_starts rfl _
  | rethrow => exact lower_starts rfl _

/-- What reading the text of a clause comes to, whatever text follows that does not belong to it. -/
def Clause.Reading (n : Nat) (table : Substitutions) (text : List Char) (table' : Substitutions) :
    Clause → Prop
  | .expression node => ∀ rest, Closed rest →
      Reads true (Rules.levels n).expression (text ++ rest) table node rest table'
  | .expressions nodes => ∀ rest, Closed rest →
      Items true (Rules.levels n).expression (fun _ => StartsWith isExpressionStart) (text ++ rest)
        table nodes rest table'
  | .literal node => ∀ rest,
      Reads true (Rules.levels n).exprPrimary (text ++ rest) table node rest table'
  | .initializer elements => ∀ wrap rest,
      Reads true (initialized (Rules.levels n) wrap) (text ++ rest) table
        (wrap elements) rest table'
  | .scoped node => ∀ rest, Closed rest →
      Reads true (scopedName (Rules.levels n)) (text ++ rest) table node rest table'
  | .base node => ∀ rest, Closed rest →
      Reads true (baseUnresolvedName (Rules.levels n)) (text ++ rest) table node rest table'
  | .simpleId node => ∀ rest, Closed rest →
      Reads true (Grammar.simpleId (Rules.levels n)) (text ++ rest) table node rest table'
  | .simpleIds nodes => ∀ rest, Closed rest →
      Items true (Grammar.simpleId (Rules.levels n)) (fun _ => StartsWith isDigit)
        (text ++ rest) table nodes rest table'
  | .qualifier node => ∀ rest, Closed rest →
      Reads true (qualifierType (Rules.levels n)) (text ++ rest) table node rest table'
  | .applied name node => ∀ rest, Closed rest →
      Reads true ((Rules.levels n).withTemplateArgs name) (text ++ rest) table node rest table'
  | .arguments nodes => ∀ rest, Closed rest →
      Items true (Rules.levels n).templateArg (fun _ => StartsWith isArgumentStart) (text ++ rest)
        table nodes rest table'

/-- What may start a clause does not belong to the one before. -/
theorem closed_append_of_starts {ofClass : Char → Bool} {text rest : List Char}
    (h : text = [] ∨ StartsWith ofClass text) (hI : ofClass 'I' = false) (hB : ofClass 'B' = false)
    (hrest : Closed rest) : Closed (text ++ rest) := by
  rcases h with rfl | hstarts
  · exact hrest
  · exact (hstarts.append rest).closed hI hB

theorem closed_end (rest : List Char) : Closed ('E' :: rest) := closed_of_head (by decide)

theorem NameStart.closed {text : List Char} (h : NameStart text) (rest : List Char) :
    Closed (text ++ rest) := by
  cases h with
  | @digit c more hc =>
    have hstarts : StartsWith isDigit (c :: more) := hc
    exact (hstarts.append rest).closed rfl rfl
  | operator => exact closed_of_head (by decide)
  | destructor => exact closed_of_head (by decide)

theorem scoped_closed {node : Node} {text : List Char} (h : (Clause.scoped node).Starts text)
    (rest : List Char) : Closed (text ++ rest) := by
  rcases h with hname | ⟨more,rfl⟩
  · exact hname.closed rest
  · exact closed_of_head (by decide)

section
variable {n : Nat} {table table₁ table₂ table₃ : Substitutions} {text text₁ text₂ rest : List Char}

theorem expressions_reads {nodes : List Node}
    (h : (Clause.expressions nodes).Reading n table text table₁) (rest : List Char) :
    Reads true (expressionsToE (Rules.levels n)) (text ++ 'E' :: rest) table nodes rest table₁ :=
  itemsToE_reads (h _ (closed_end rest)) fun _ _ hstarts => hstarts.head_ne rfl

theorem expression_then {node : Node} (h : (Clause.expression node).Reading n table text table₁)
    (hstarts : StartsWith isExpressionStart text₁) (rest : List Char) :
    Reads true (Rules.levels n).expression (text ++ (text₁ ++ rest)) table node
      (text₁ ++ rest) table₁ :=
  h _ ((hstarts.append rest).closed rfl rfl)

theorem type_then {type : Node} (h : Spells n table (.type type) text table₁)
    (hstarts : StartsWith isExpressionStart text₁) (rest : List Char) :
    Reads true (Rules.levels n).type (text ++ (text₁ ++ rest)) table type (text₁ ++ rest) table₁ :=
  h.reads _ ((hstarts.append rest).closed rfl rfl)

/-! Clauses are read piece by piece. -/

theorem valueLiteral_reading {type : BuiltinType} {code value : List Char} {node : Node}
    (h : BuiltinCode type code) (htype : type ≠ .nullptr) (hvalue : ∀ c ∈ value, c ≠ 'E')
    (hnode : ∀ start rest, Reads true (literalOf start (.builtinType type) value) rest
      table node rest table) :
    (Clause.literal node).Reading (n + 2) table ('L' :: (code ++ (value ++ ['E']))) table := by
  intro rest
  have htext : 'L' :: (code ++ (value ++ ['E'])) ++ rest =
      'L' :: (code ++ (value ++ 'E' :: rest)) := by simp
  rw [htext]
  exact nested_reads (valueLiteral_reads h htype hvalue (nested_reads (builtin_reads h))
    fun start => hnode start rest)

theorem integer_reading {type : BuiltinType} {code digits : List Char} (negative : Bool)
    (htype : isIntegerType type = true) (h : BuiltinCode type code) (hne : digits ≠ [])
    (hdigits : ∀ c ∈ digits, isDigit c = true) :
    (Clause.literal (.integerLiteral (.builtinType type)
        (String.ofList ((if negative then ['-'] else []) ++ digits)))).Reading (n + 2) table
      ('L' :: (code ++ ((if negative then ['n'] else []) ++ (digits ++ ['E'])))) table := by
  have hnullptr : type ≠ .nullptr := by
    rintro rfl
    cases htype
  have hvalue : ∀ c ∈ (if negative then ['n'] else []) ++ digits, c ≠ 'E' := by
    rintro c hc rfl
    rcases List.mem_append.mp hc with hsign | hdigit
    · cases negative <;> simp at hsign
    · exact absurd (hdigits _ hdigit) Bool.false_ne_true
  rw [← List.append_assoc (if negative then ['n'] else [])]
  exact valueLiteral_reading h hnullptr hvalue fun start rest =>
    integerLiteral_reads start htype (integerValue?_spelled negative hne hdigits)

theorem float_reading {type : BuiltinType} {code digits : List Char}
    (htype : type ∈ [.float,.double]) (h : BuiltinCode type code) (hne : digits ≠ [])
    (hdigits : ∀ c ∈ digits, isLowerHexDigit c = true) :
    (Clause.literal (.floatLiteral (.builtinType type) (String.ofList digits))).Reading
      (n + 2) table ('L' :: (code ++ (digits ++ ['E']))) table := by
  have hnullptr : type ≠ .nullptr := by
    rintro rfl
    simp at htype
  have hvalue : ∀ c ∈ digits, c ≠ 'E' := by
    rintro c hc rfl
    exact absurd (hdigits _ hc) Bool.false_ne_true
  exact valueLiteral_reading h hnullptr hvalue fun start rest =>
    floatLiteral_reads start htype hne hdigits

theorem new_reading {placement : List Node} {type : Node} {initializer : Option (List Node)}
    (array globalScope : Bool) (h : Spells n table₁ (.type type) text₁ table₂)
    (hstarts : StartsWith isInitializerStart text₂)
    (hplacement : (Clause.expressions placement).Reading n table text table₁)
    (hinitializer : (Clause.initializer initializer).Reading n table₂ text₂ table₃) :
    (Clause.expression (.newExpression placement type initializer array globalScope)).Reading
      (n + 1) table ((if globalScope then ['g','s'] else []) ++
        'n' :: (if array then 'a' else 'w') :: (text ++ '_' :: (text₁ ++ text₂))) table₃ := by
  intro rest _
  have hclosed : Closed (text₂ ++ rest) := (hstarts.append rest).closed rfl rfl
  have hnew := newExpression_reads array globalScope (hplacement _ (closed_of_head (by decide)))
    (h.reads _ hclosed) (hinitializer _ rest)
  simp only [List.append_assoc,List.cons_append]
  exact nested_reads (new_reads array globalScope hnew)

theorem unresolved_reading {name : Node} (globalScope : Bool)
    (hstarts : (Clause.scoped name).Starts text)
    (h : (Clause.scoped name).Reading n table text table₁) :
    (Clause.expression (.unresolvedName name globalScope)).Reading (n + 2) table
      ((if globalScope then ['g','s'] else []) ++ text) table₁ := by
  intro rest hrest
  have hname : Reads true ((Rules.levels (n + 1)).unresolvedName globalScope) (text ++ rest) table
      (.unresolvedName name globalScope) rest table₁ :=
    nested_reads (unresolvedName_reads globalScope (h rest hrest))
  have hstart : NameStart (text ++ rest) ∨ ∃ more, text ++ rest = 's' :: 'r' :: more := by
    rcases hstarts with hname | ⟨more,rfl⟩
    · exact .inl (hname.append rest)
    · exact .inr ⟨_,rfl⟩
  rw [List.append_assoc]
  exact nested_reads (globalName_reads globalScope hstart hname)

theorem inType_reading {qualifier node : Node} (hstarts : (Clause.qualifier qualifier).Starts text)
    (hbase : NameStart text₁) (h : (Clause.qualifier qualifier).Reading n table text table₁)
    (h' : (Clause.base node).Reading n table₁ text₁ table₂) :
    (Clause.scoped (.nestedName qualifier node)).Reading n table ('s' :: 'r' :: (text ++ text₁))
      table₂ := by
  intro rest hrest
  have hqualifier := h _ (hbase.closed rest)
  obtain ⟨c,more,rfl,hc⟩ := StartsWith.exists_cons hstarts
  have hdigit : isDigit c = false := by
    rcases (Bool.or_eq_true _ _).mp hc with hT | hS
    · rw [eq_of_beq hT]
      rfl
    · rw [eq_of_beq hS]
      rfl
  have hread := inType_reads ⟨hdigit,ne_of_class hc rfl⟩ hqualifier (h' rest hrest)
  simpa using hread

theorem levels_then {qualifier node : Node} {levels : List Node}
    (h : (Clause.simpleIds levels).Reading n table text table₁)
    (h' : (Clause.base node).Reading n table₁ text₁ table₂) (hrest : Closed rest) :
    Reads true (qualifiedTo (Rules.levels n) qualifier) (text ++ 'E' :: (text₁ ++ rest)) table
      (.nestedName (levels.foldl .nestedName qualifier) node) rest table₂ :=
  qualifiedTo_reads (h _ (closed_end _)) (h' rest hrest)

theorem inTypeLevels_reading {qualifier node : Node} {levels : List Node}
    (hlevels : (Clause.simpleIds levels).Starts text₁)
    (h : (Clause.qualifier qualifier).Reading n table text table₁)
    (h' : (Clause.simpleIds levels).Reading n table₁ text₁ table₂)
    (h'' : (Clause.base node).Reading n table₂ text₂ table₃) :
    (Clause.scoped (.nestedName (levels.foldl .nestedName qualifier) node)).Reading n table
      ('s' :: 'r' :: 'N' :: (text ++ (text₁ ++ 'E' :: text₂))) table₃ := by
  intro rest hrest
  have hqualifier := h _ (closed_append_of_starts hlevels rfl rfl (closed_end (text₂ ++ rest)))
  simp only [List.append_assoc,List.cons_append]
  exact inTypeLevels_reads hqualifier (levels_then h' h'' hrest)

theorem inLevels_reading {level node : Node} {levels : List Node}
    (hstarts : StartsWith isDigit text) (hlevels : (Clause.simpleIds levels).Starts text₁)
    (h : (Clause.simpleId level).Reading n table text table₁)
    (h' : (Clause.simpleIds levels).Reading n table₁ text₁ table₂)
    (h'' : (Clause.base node).Reading n table₂ text₂ table₃) :
    (Clause.scoped (.nestedName (levels.foldl .nestedName level) node)).Reading n table
      ('s' :: 'r' :: (text ++ (text₁ ++ 'E' :: text₂))) table₃ := by
  intro rest hrest
  have hlevel := h _ (closed_append_of_starts hlevels rfl rfl (closed_end (text₂ ++ rest)))
  have hread : Reads true (terminatedLevels (Rules.levels n))
      (text ++ (text₁ ++ 'E' :: (text₂ ++ rest))) table
      (.nestedName (levels.foldl .nestedName level) node) rest table₃ := by
    unfold terminatedLevels
    exact hlevel.bind (levels_then h' h'' hrest)
  obtain ⟨c,more,rfl,hc⟩ := hstarts.exists_cons
  simp only [List.append_assoc,List.cons_append] at hread ⊢
  exact inLevels_reads hc hread

theorem referredDestructor_reading {node : Node} {i : Nat} (h : table.entries[i]? = some node) :
    (Clause.base (.destructorName node)).Reading n table ('d' :: 'n' :: backReference i) table := by
  intro rest _
  have hread :
    Reads true (unresolvedType (Rules.levels n)) (backReference i ++ rest) table node rest
      table := unresolvedReference_reads h rest
  obtain ⟨c,code,hcode,_⟩ := backReference_head i
  rw [hcode] at hread ⊢
  exact typeDestructor_reads rfl hread

theorem paramDestructor_reading {i : Nat} (h : i ≤ 10 ^ numberDigitsMax) :
    (Clause.base (.destructorName (.templateParam i))).Reading n table
      ('d' :: 'n' :: templateParamCode i) (table.append (.templateParam i)) := by
  intro rest _
  have hread : Reads true (unresolvedType (Rules.levels n)) (templateParamCode i ++ rest) table
      (.templateParam i) rest (table.append (.templateParam i)) := unresolvedParam_reads h rest
  obtain ⟨c,code,hcode,_⟩ := templateParamCode_head i
  rw [hcode] at hread ⊢
  exact typeDestructor_reads rfl hread

theorem destructor_reading {node : Node} (hstarts : StartsWith isDigit text)
    (h : (Clause.simpleId node).Reading n table text table₁) :
    (Clause.base (.destructorName node)).Reading n table ('d' :: 'n' :: text) table₁ := by
  intro rest hrest
  have hread := h rest hrest
  obtain ⟨c,more,rfl,hc⟩ := hstarts.exists_cons
  exact destructor_reads hc hread

theorem identifier_reading {node : Node} (hstarts : StartsWith isDigit text)
    (h : (Clause.simpleId node).Reading n table text table₁) :
    (Clause.base node).Reading n table text table₁ := by
  intro rest hrest
  have hread := h rest hrest
  obtain ⟨c,more,rfl,hc⟩ := hstarts.exists_cons
  exact baseIdentifier_reads hc hread

theorem applied_reading {name : Node} {arguments : List Node}
    (h : (Clause.arguments arguments).Reading n table text table₁) :
    (Clause.applied name (.templateName name arguments)).Reading (n + 1) table
      ('I' :: (text ++ ['E'])) table₁ := by
  intro rest _
  have harguments :
    Reads true (Rules.levels (n + 1)).templateArgs ('I' :: (text ++ 'E' :: rest)) table
      arguments rest table₁ :=
    nested_reads (templateArgs_reads (h _ (closed_end rest)) fun _ _ hstarts => hstarts.head_ne rfl)
  have htext : 'I' :: (text ++ ['E']) ++ rest = 'I' :: (text ++ 'E' :: rest) := by simp
  rw [htext]
  exact withArguments_reads harguments

theorem argument_reading {node : Node} {arguments : List Node}
    (hstarts : StartsWith isArgumentStart text)
    (hread : ∀ rest, Closed rest →
      Reads true (templateArg (Rules.levels n)) (text ++ rest) table node rest table₁)
    (harguments : (Clause.arguments arguments).Starts text₁)
    (h : (Clause.arguments arguments).Reading (n + 1) table₁ text₁ table₂) :
    (Clause.arguments (node :: arguments)).Reading (n + 1) table (text ++ text₁) table₂ := by
  intro rest hrest
  have hone := hread _ (closed_append_of_starts harguments rfl rfl hrest)
  rw [List.append_assoc]
  exact .cons (hstarts.append _) (nested_reads hone) (hstarts.length_lt _) (h rest hrest)

end

theorem Expresses.reads {n : Nat} {table table' : Substitutions} {clause : Clause}
    {text : List Char} (h : Expresses n table clause text table') :
    clause.Reading n table text table' := by
  induction h with
  | bool value =>
    have hvalue : ∀ c ∈ [if value then '1' else '0'], c ≠ 'E' := by cases value <;> simp
    refine valueLiteral_reading (.letter (c := 'b') rfl) (by decide) hvalue fun start rest => ?_
    cases value <;> exact .pure
  | nullptr h => exact fun rest => nested_reads (nullptr_reads h)
  | integer negative htype h hne hdigits => exact integer_reading negative htype h hne hdigits
  | float htype h hne hdigits => exact float_reading htype h hne hdigits
  | literal h ih =>
    obtain ⟨more,rfl⟩ := h.starts
    exact fun rest _ => nested_reads (literalExpression_reads (ih rest))
  | templateParam h => exact fun rest _ => nested_reads (templateParamExpression_reads h)
  | functionParam h => exact fun rest _ => nested_reads (functionParamExpression_reads h)
  | unary hkind _ ih => exact fun rest hrest => nested_reads (unary_reads hkind (ih rest hrest))
  | afterOperand hkind h ih =>
    intro rest hrest
    refine nested_reads (afterOperand_reads hkind ?_ (ih rest hrest))
    exact (StartsWith.append h.starts rest).no_literal rfl
  | beforeOperand hkind _ ih =>
    exact fun rest hrest => nested_reads (beforeOperand_reads hkind (ih rest hrest))
  | binary hkind _ h' ih ih' =>
    intro rest hrest
    simp only [List.append_assoc,List.cons_append]
    exact nested_reads (binary_reads hkind (expression_then ih h'.starts rest) (ih' rest hrest))
  | conditional _ h' h'' ih ih' ih'' =>
    intro rest hrest
    have hcondition := expression_then ih h'.starts
    have htrue := expression_then ih' h''.starts
    simp only [List.append_assoc,List.cons_append]
    exact nested_reads (conditional_reads (hcondition _) (htrue rest) (ih'' rest hrest))
  | call _ h' ih ih' =>
    intro rest _
    have hcallee := ih _ (closed_append_of_starts h'.starts rfl rfl (closed_end rest))
    simp only [List.append_assoc,List.cons_append,List.nil_append]
    exact nested_reads (call_reads hcallee (expressions_reads ih' rest))
  | cast hcode h h' ih =>
    intro rest hrest
    simp only [List.append_assoc,List.cons_append]
    exact nested_reads (cast_reads hcode (type_then h h'.starts rest) (ih rest hrest))
  | conversion h h' ih =>
    intro rest hrest
    have hone := StartsWith.append h'.starts rest
    simp only [List.append_assoc,List.cons_append]
    exact nested_reads (conversion_reads (type_then h h'.starts rest) (hone.no_literal rfl)
      (ih rest hrest))
  | conversionOfList h _ ih =>
    intro rest _
    simp only [List.append_assoc,List.cons_append,List.nil_append]
    exact nested_reads (conversionOfList_reads (h.reads _ (closed_of_head (by decide)))
      (expressions_reads ih rest))
  | initList _ ih =>
    intro rest _
    simp only [List.append_assoc,List.cons_append,List.nil_append]
    exact nested_reads (initList_reads (expressions_reads ih rest))
  | typedInitList h h' ih =>
    intro rest _
    have htype := h.reads _ (closed_append_of_starts h'.starts rfl rfl (closed_end rest))
    simp only [List.append_assoc,List.cons_append,List.nil_append]
    exact nested_reads (typedInitList_reads htype (expressions_reads ih rest))
  | new array globalScope _ h h' ih ih' => exact new_reading array globalScope h h'.starts ih ih'
  | delete array globalScope _ ih =>
    intro rest hrest
    have hdelete := deleteExpression_reads array globalScope (ih rest hrest)
    rw [List.append_assoc]
    exact nested_reads (delete_reads array globalScope hdelete)
  | typeOperator hcode h =>
    exact fun rest hrest => nested_reads (typeOperator_reads hcode (h.reads rest hrest))
  | expressionOperator hcode _ ih =>
    exact fun rest hrest => nested_reads (expressionOperator_reads hcode (ih rest hrest))
  | sizeofTemplateParam h => exact fun rest _ => nested_reads (sizeofTemplateParam_reads h)
  | sizeofFunctionParam h => exact fun rest _ => nested_reads (sizeofFunctionParam_reads h)
  | member hcode _ h' ih ih' =>
    intro rest hrest
    have hobject := ih _ (scoped_closed h'.starts rest)
    have hmember := nested_reads (unresolvedName_reads false (ih' rest hrest))
    simp only [List.append_assoc,List.cons_append]
    exact nested_reads (member_reads hcode hobject hmember)
  | memberPointer _ h' ih ih' =>
    intro rest hrest
    simp only [List.append_assoc,List.cons_append]
    exact nested_reads (memberPointer_reads (expression_then ih h'.starts rest) (ih' rest hrest))
  | packExpansion _ ih => exact fun rest hrest => nested_reads (packExpansion_reads (ih rest hrest))
  | throw _ ih => exact fun rest hrest => nested_reads (throw_reads (ih rest hrest))
  | rethrow => exact fun rest _ => nested_reads rethrow_reads
  | unresolved globalScope h ih => exact unresolved_reading globalScope h.starts ih
  | noExpressions => exact fun rest _ => .nil rest _
  | moreExpressions h h' ih ih' =>
    intro rest hrest
    have hone := ih _ (closed_append_of_starts h'.starts rfl rfl hrest)
    rw [List.append_assoc]
    exact .cons (StartsWith.append h.starts _) hone (StartsWith.length_lt h.starts _)
      (ih' rest hrest)
  | noInitializer => exact fun wrap rest => uninitialized_reads
  | initializer _ ih =>
    intro wrap rest
    simp only [List.append_assoc,List.cons_append,List.nil_append]
    exact initialized_reads (expressions_reads ih rest)
  | braces _ ih =>
    intro wrap rest
    simp only [List.append_assoc,List.cons_append,List.nil_append]
    exact braces_reads (nested_reads (initList_reads (expressions_reads ih rest)))
  | unscoped h ih =>
    exact fun rest hrest => unscoped_reads (NameStart.append h.starts rest) (ih rest hrest)
  | inType h h' ih ih' => exact inType_reading h.starts h'.starts ih ih'
  | inTypeLevels _ h' _ ih ih' ih'' => exact inTypeLevels_reading h'.starts ih ih' ih''
  | inLevels h h' _ ih ih' ih'' => exact inLevels_reading h.starts h'.starts ih ih' ih''
  | identifier h ih => exact identifier_reading h.starts ih
  | operator _ ih => exact fun rest hrest => baseOperator_reads _ (ih rest hrest)
  | destructor h ih => exact destructor_reading h.starts ih
  | paramDestructor h => exact paramDestructor_reading h
  | referredDestructor h => exact referredDestructor_reading h
  | simpleId hname _ ih =>
    intro rest hrest
    rw [List.append_assoc]
    exact simpleId_reads hname (ih rest hrest)
  | noSimpleIds => exact fun rest _ => .nil rest _
  | moreSimpleIds h h' ih ih' =>
    intro rest hrest
    have hone := ih _ (closed_append_of_starts h'.starts rfl rfl hrest)
    rw [List.append_assoc]
    exact .cons (StartsWith.append h.starts _) hone (StartsWith.length_lt h.starts _)
      (ih' rest hrest)
  | paramQualifier h _ ih =>
    intro rest hrest
    rw [List.append_assoc]
    exact (unresolvedParam_reads h _).bind (ih rest hrest)
  | referredQualifier h _ ih =>
    intro rest hrest
    rw [List.append_assoc]
    exact (unresolvedReference_reads h _).bind (ih rest hrest)
  | bare => exact fun rest hrest => withoutArguments_reads hrest.arguments
  | applied _ ih => exact applied_reading ih
  | noArguments => exact fun rest _ => .nil rest _
  | typeArgument h h' ih =>
    exact argument_reading (argument_starts h.starts) (fun rest hrest =>
      templateArg_reads (Opens.append h.starts rest) (h.reads rest hrest)) h'.starts ih
  | literalArgument h h' ih ih' =>
    obtain ⟨more,rfl⟩ := h.starts
    exact argument_reading rfl (fun rest _ => literalArg_reads (ih rest)) h'.starts ih'
  | @expressionArgument _ _ _ _ text text' _ _ h h' ih ih' =>
    have htext : 'X' :: (text ++ 'E' :: text') = 'X' :: (text ++ ['E']) ++ text' := by simp
    rw [htext]
    refine argument_reading rfl (fun rest _ => ?_) h'.starts ih'
    have hread := ih _ (closed_end rest)
    simp only [List.append_assoc,List.cons_append,List.nil_append]
    exact expressionArg_reads hread

end MangledNames.Grammar
