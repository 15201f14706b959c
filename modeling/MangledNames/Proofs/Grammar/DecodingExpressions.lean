import MangledNames.Proofs.Grammar.SpellingExpressions
import MangledNames.Proofs.Grammar.DecodingUnresolvedNames
import MangledNames.Proofs.Grammar.SoundExpressions
set_option autoImplicit false

/-!
Reading expressions that are spelled, production by production.
-/

namespace MangledNames

namespace Cursor

theorem skipUntil?_append {delimiter : Char} {found : List Char} (h : ∀ c ∈ found, c ≠ delimiter)
    (before passed rest : List Char) :
    skipUntil? [delimiter] before ⟨passed,found ++ delimiter :: rest⟩ =
      some (before.reverse ++ found,⟨delimiter :: (found.reverse ++ passed),rest⟩) := by
  induction found generalizing before passed with
  | nil => simp [skipUntil?,skip?]
  | cons c found ih =>
    have hc : delimiter ≠ c := Ne.symm (h c List.mem_cons_self)
    rw [List.cons_append,skipUntil?]
    simp only [skip?,if_neg hc]
    rw [ih fun x hx => h x (List.mem_cons_of_mem c hx)]
    simp

theorem takeUntil_gives {found : List Char} (h : ∀ c ∈ found, c ≠ 'E') (production : String)
    (rest : List Char) :
    Gives (takeUntil "E" production) (At (found ++ 'E' :: rest)) found (At rest) := by
  refine ⟨fun c hc => ⟨⟨'E' :: (found.reverse ++ c.passed),rest⟩,?_,rfl⟩⟩
  have hskip := skipUntil?_append h [] c.passed rest
  rw [hc.eq]
  unfold takeUntil
  rw [bind_apply,get_apply]
  dsimp only
  rw [show "E".toList = ['E'] from rfl,hskip]
  rfl

theorem consumeAny_refuses {literals : List String} {rest : List Char}
    (h : ∀ literal ∈ literals, literal.toList.isPrefixOf rest = false) :
    Gives (consumeAny literals) (At rest) false (At rest) := by
  induction literals with
  | nil => exact .pure
  | cons literal others ih =>
    unfold consumeAny
    refine (consume_refuses (h literal List.mem_cons_self)).bind ?_
    exact ih fun other hother => h other (List.mem_cons_of_mem literal hother)

theorem consumeAny_second {first second : String} {rest : List Char}
    (h : first.toList.isPrefixOf (second.toList ++ rest) = false) :
    Gives (consumeAny [first,second]) (At (second.toList ++ rest)) true (At rest) := by
  unfold consumeAny
  refine (consume_refuses h).bind ?_
  unfold consumeAny
  exact (consume_gives second rest).bind .pure

end Cursor

namespace Grammar

open Cursor

/-- Expressions start with a code, a name, a literal or a parameter. -/
def isExpressionStart (c : Char) : Bool := isWordStart c || c == 'L' || c == 'T'

section
variable {allowed : Bool} {r : Rules} {rest rest₁ rest₂ rest₃ : List Char}
  {table table₁ table₂ table₃ : Substitutions} {node : Node}

/-! Literals. -/

/-- The code of a builtin type announces neither an external name nor a null pointer. -/
theorem builtinCode_literal {type : BuiltinType} {code : List Char} (h : BuiltinCode type code)
    (htype : type ≠ .nullptr) (rest : List Char) :
    ∀ literal ∈ ["_Z","Z","DnE","Dn0E"], literal.toList.isPrefixOf (code ++ rest) = false := by
  cases h with
  | letter h =>
    unfold BuiltinType.ofLetter? at h
    split at h
    all_goals
      cases h
      try
        simp only [List.forall_mem_cons]
        exact ⟨rfl,rfl,rfl,rfl,by simp⟩
  | afterD h =>
    unfold BuiltinType.ofLetterAfterD? at h
    split at h
    all_goals
      cases h
      try
        first
          | exact absurd rfl htype
          | simp only [List.forall_mem_cons]
            exact ⟨rfl,rfl,rfl,rfl,by simp⟩

/-- A literal whose type announces neither an external name nor a null pointer. -/
theorem typedLiteral_reads {type : Node} {text value : List Char}
    (hliterals : ∀ literal ∈ ["_Z","Z","DnE","Dn0E"], literal.toList.isPrefixOf text = false)
    (hvalue : ∀ c ∈ value, c ≠ 'E')
    (hread : Reads allowed r.type text table type (value ++ 'E' :: rest) table₁)
    (hnode : ∀ start, Reads allowed (literalOf start type value) rest table₁ node rest table₁) :
    Reads allowed (exprPrimary r) ('L' :: text) table node rest table₁ := by
  obtain ⟨hexternal,hnullptr⟩ := List.forall_mem_append.mp
    (show ∀ literal ∈ ["_Z","Z"] ++ ["DnE","Dn0E"], _ from hliterals)
  unfold exprPrimary
  refine (scanned (expect_gives "L" _ _)).bind ((scanned (consumeAny_refuses hexternal)).bind ?_)
  refine .ifNeg Bool.false_ne_true ((scanned (consumeAny_refuses hnullptr)).bind ?_)
  refine .ifNeg Bool.false_ne_true (hread.bind (here_then fun start _ => ?_))
  exact (scanned (takeUntil_gives hvalue _ rest)).bind (hnode start)

theorem valueLiteral_reads {type : BuiltinType} {code value : List Char} (h : BuiltinCode type code)
    (htype : type ≠ .nullptr) (hvalue : ∀ c ∈ value, c ≠ 'E')
    (hread : Reads allowed r.type (code ++ (value ++ 'E' :: rest)) table (.builtinType type)
      (value ++ 'E' :: rest) table)
    (hnode : ∀ start, Reads allowed (literalOf start (.builtinType type) value) rest table node rest
      table) :
    Reads allowed (exprPrimary r) ('L' :: (code ++ (value ++ 'E' :: rest))) table node rest table :=
  typedLiteral_reads (builtinCode_literal h htype _) hvalue hread hnode

theorem nullptr_reads {text : List Char} (h : text ∈ [['L','D','n','E'],['L','D','n','0','E']]) :
    Reads allowed (exprPrimary r) (text ++ rest) table .nullptrLiteral rest table := by
  have hread : ∀ literal ∈ ["DnE","Dn0E"], Reads allowed (exprPrimary r)
      ('L' :: (literal.toList ++ rest)) table .nullptrLiteral rest table := by
    intro literal hliteral
    have hgives : Gives (consumeAny ["DnE","Dn0E"]) (Cursor.At (literal.toList ++ rest)) true
        (Cursor.At rest) := by
      rcases List.mem_pair.mp hliteral with rfl | rfl
      · unfold consumeAny
        exact (consume_gives "DnE" rest).bind .pure
      · exact consumeAny_second rfl
    have hrefuses : Gives (consumeAny ["_Z","Z"]) (Cursor.At (literal.toList ++ rest)) false
        (Cursor.At (literal.toList ++ rest)) := by
      refine consumeAny_refuses ?_
      rcases List.mem_pair.mp hliteral with rfl | rfl
      · simp [List.isPrefixOf]
      · simp [List.isPrefixOf]
    unfold exprPrimary
    refine (scanned (expect_gives "L" _ _)).bind ((scanned hrefuses).bind ?_)
    exact .ifNeg Bool.false_ne_true ((scanned hgives).bind .pure)
  rcases List.mem_pair.mp h with rfl | rfl
  · exact hread "DnE" (by simp)
  · exact hread "Dn0E" (by simp)

theorem integerValue?_spelled (negative : Bool) {digits : List Char} (hne : digits ≠ [])
    (hdigits : ∀ c ∈ digits, isDigit c = true) :
    integerValue? ((if negative then ['n'] else []) ++ digits) =
      some ((if negative then ['-'] else []) ++ digits) := by
  have hall : (!digits.isEmpty && digits.all isDigit) = true := by
    simpa [hne] using hdigits
  cases negative with
  | true => simpa [integerValue?,hne] using hdigits
  | false =>
    change integerValue? digits = some digits
    unfold integerValue?
    split
    · exact absurd (hdigits 'n' List.mem_cons_self) Bool.false_ne_true
    · rw [if_pos hall]

theorem integerLiteral_reads {type : BuiltinType} {value digits : List Char} (start : Cursor)
    (htype : isIntegerType type = true) (h : integerValue? value = some digits) :
    Reads allowed (literalOf start (.builtinType type) value) rest table
      (.integerLiteral (.builtinType type) (String.ofList digits)) rest table := by
  have hfloating : isFloatingType (.builtinType type) = false := by
    cases type <;> first | rfl | cases htype
  have hbool : type ≠ .bool := by
    rintro rfl
    cases htype
  have hwell : (Node.integerLiteral (.builtinType type) (String.ofList digits)).wellFormed = true :=
    integerValue?_isDecimal h
  unfold literalOf
  split
  · cases h
  split
  · rename_i htype _
    exact absurd (Node.builtinType.inj htype) hbool
  · rename_i htype _
    exact absurd (Node.builtinType.inj htype) hbool
  · rw [hfloating,h]
    exact build_reads hwell

theorem isLowerHexDigit_isDigit {c : Char} (h : isLowerHexDigit c = true) :
    HexFloat.isDigit c = true := by
  unfold isLowerHexDigit at h
  unfold HexFloat.isDigit
  rw [show c.isDigit = isDigit c from rfl,h]
  rfl

theorem isLowerHexDigit_toLower {c : Char} (h : isLowerHexDigit c = true) : c.toLower = c := by
  simp only [isLowerHexDigit,isDigit,Bool.or_eq_true,Bool.and_eq_true,decide_eq_true_eq] at h
  refine dif_neg ?_
  rintro ⟨hA : 'A' ≤ c,hZ : c ≤ 'Z'⟩
  rcases h with ⟨_,h9⟩ | ⟨ha,_⟩
  · exact absurd (Char.le_trans hA h9) (by decide)
  · exact absurd (Char.le_trans ha hZ) (by decide)

theorem isFloatValue_of_digits {value : List Char} (hne : value ≠ [])
    (h : ∀ c ∈ value, isLowerHexDigit c = true) : isFloatValue value = true := by
  have hall : (value ++ []).takeWhile HexFloat.isDigit = value ++ [] :=
    List.takeWhile_append_of_pos fun c hc => isLowerHexDigit_isDigit (h c hc)
  rw [List.append_nil] at hall
  unfold isFloatValue
  simp [hall,hne]

theorem floatLiteral_reads {type : BuiltinType} {value : List Char} (start : Cursor)
    (htype : type ∈ [.float,.double]) (hne : value ≠ [])
    (h : ∀ c ∈ value, isLowerHexDigit c = true) :
    Reads allowed (literalOf start (.builtinType type) value) rest table
      (.floatLiteral (.builtinType type) (String.ofList value)) rest table := by
  have hlower : value.map Char.toLower = value := by
    rw [List.map_congr_left fun c hc => isLowerHexDigit_toLower (h c hc)]
    exact List.map_id value
  have hbool : type ≠ .bool := by
    rintro rfl
    simp at htype
  have hfloating : isFloatingType (.builtinType type) = true := by
    rcases List.mem_pair.mp htype with rfl | rfl <;> rfl
  unfold literalOf
  split
  · exact absurd rfl hne
  split
  · rename_i htype _
    exact absurd (Node.builtinType.inj htype) hbool
  · rename_i htype _
    exact absurd (Node.builtinType.inj htype) hbool
  · rw [hfloating,isFloatValue_of_digits hne h,hlower]
    exact .pure

/-! Parameters of functions. -/

theorem paramNumber_gives {number : Option Nat} (h : ∀ n ∈ number, n < 10 ^ numberDigitsMax)
    (cv : CvQualifiers) (rest : List Char) :
    Gives (do
      let _ ← cvQualifiers
      if ← consume "_" then return .functionParam none
      let number ← unsigned "function parameter"
      expect "_" "function parameter"
      return .functionParam (some number) : Scan Node)
      (Cursor.At (cvCode cv ++ (arrayBound number ++ rest))) (.functionParam number)
      (Cursor.At rest) := by
  cases number with
  | none =>
    refine (cvQualifiers_gives cv ?_).bind ((consume_gives "_" rest).bind .pure)
    rintro c ⟨rfl⟩
    decide
  | some n =>
    obtain ⟨d,digits,hd,hs⟩ := spelled_head 10 n (by decide)
    have htext : arrayBound (some n) ++ rest = spelled 10 n ++ '_' :: rest := by simp [arrayBound]
    have hhead : ∀ c ∈ (spelled 10 n ++ '_' :: rest).head?, c ∉ ['r','V','K'] := by
      have hdigits : ∀ d < 10, digitChar d ∉ ['r','V','K'] := by decide
      rw [hs]
      rintro c ⟨rfl⟩
      exact hdigits d hd
    rw [htext]
    refine (cvQualifiers_gives cv hhead).bind ?_
    refine (consume_refuses (spelled_no_end 10 n (by decide) (by decide) _)).bind ?_
    refine .ifNeg Bool.false_ne_true ((unsigned_gives _ (h n rfl) rfl).bind ?_)
    exact (expect_gives "_" _ rest).bind .pure

theorem functionParam_gives {number : Option Nat} {text : List Char}
    (h : FunctionParamCode number text) (rest : List Char) :
    Gives functionParam (Cursor.At (text ++ rest)) (.functionParam number) (Cursor.At rest) := by
  unfold functionParam
  cases h with
  | own cv h =>
    have htext : 'f' :: 'p' :: (cvCode cv ++ arrayBound number) ++ rest =
        'f' :: 'p' :: (cvCode cv ++ (arrayBound number ++ rest)) := by simp
    rw [htext]
    refine (consume_refuses rfl).bind (.ifNeg Bool.false_ne_true ?_)
    exact (expect_gives "fp" _ _).bind (paramNumber_gives h cv rest)
  | outer level cv hlevel h =>
    have htext :
      'f' :: 'L' :: (spelled 10 level ++ 'p' :: (cvCode cv ++ arrayBound number)) ++ rest =
        'f' :: 'L' :: (spelled 10 level ++ 'p' :: (cvCode cv ++ (arrayBound number ++ rest))) := by
      simp
    rw [htext]
    refine (consume_gives "fL" _).bind (.ifPos rfl ?_)
    refine (unsigned_gives _ hlevel rfl).bind ?_
    exact (expect_gives "p" _ _).bind (paramNumber_gives h cv rest)

/-! Which production reads an expression. -/

theorem literalExpression_reads
    (h : Reads allowed r.exprPrimary ('L' :: rest) table node rest₁ table₁) :
    Reads allowed (expression r) ('L' :: rest) table node rest₁ table₁ := by
  unfold expression
  refine here_then fun start hstart => ?_
  rw [hstart]
  exact h

theorem templateParamExpression_reads {i : Nat} (h : i ≤ 10 ^ numberDigitsMax) :
    Reads allowed (expression r) (templateParamCode i ++ rest) table
    (.templateParam i) rest table := by
  have hread :
    Reads allowed templateParam (templateParamCode i ++ rest) table (.templateParam i) rest
      table := templateParam_reads h rest
  obtain ⟨c,code,hcode,_⟩ := templateParamCode_head i
  rw [hcode] at hread ⊢
  unfold expression
  refine here_then fun start hstart => ?_
  rw [hstart]
  exact hread

/-- Names start an expression as they are. -/
theorem nameExpression_reads
    (hstart : NameStart rest ∨ ∃ more, rest = 's' :: 'r' :: more)
    (h : Reads allowed (r.unresolvedName false) rest table node rest₁ table₁) :
    Reads allowed (expression r) rest table node rest₁ table₁ := by
  unfold expression
  refine here_then fun start hrest => ?_
  rw [hrest]
  rcases hstart with hname | ⟨more,rfl⟩
  · cases hname with
    | @digit c more hc =>
      split
      all_goals
        rename_i hmatch
        cases hmatch
      case h_8 => exact .ifPos hc h
      all_goals first
        | exact h
        | cases hc
    | operator => exact h
    | destructor => exact h
  · exact h

theorem codedExpression_reads (code : Code) (hlower : isLower code.1 = true)
    (hname : code ∉ [('g','s'),('s','r'),('o','n'),('d','n')])
    (h : Reads allowed (codedExpression r code) (code.1 :: code.2 :: rest) table node
      rest₁ table₁) :
    Reads allowed (expression r) (code.1 :: code.2 :: rest) table node rest₁ table₁ := by
  obtain ⟨first,second⟩ := code
  have hdigit : isDigit first = false := isDigit_of_isLower hlower
  unfold expression
  refine here_then fun start hstart => ?_
  rw [hstart]
  split
  all_goals
    rename_i hmatch
    cases hmatch
  case h_8 =>
    rw [hdigit]
    exact h
  all_goals first
    | exact absurd hlower Bool.false_ne_true
    | exact absurd (by decide) hname

theorem codedExpression_operator {o : Operator}
    (h : o.kind ∈ [.prefixOp,.postfixOp,.binary,.index,.conditional]) :
    codedExpression r o.code = operatorExpression r o.code := by
  cases o <;> first | rfl | simp [Operator.kind] at h

/-! Expressions by their codes. -/

theorem functionParamExpression_reads {number : Option Nat} {text : List Char}
    (h : FunctionParamCode number text) :
    Reads allowed (expression r) (text ++ rest) table (.functionParam number) rest table := by
  have hread : Reads allowed (liftM functionParam) (text ++ rest) table (.functionParam number) rest
      table := scanned (functionParam_gives h rest)
  cases h with
  | own => exact codedExpression_reads (('f','p')) rfl (by decide) hread
  | outer => exact codedExpression_reads (('f','L')) rfl (by decide) hread

section
variable {callee type operand object member : Node} {operands : List Node} {code : Code}

theorem call_reads (hcallee : Reads allowed r.expression rest table callee rest₁ table₁)
    (h : Reads allowed (expressionsToE r) rest₁ table₁ operands rest₂ table₂) :
    Reads allowed (expression r) ('c' :: 'l' :: rest) table (.callExpression callee operands) rest₂
      table₂ := by
  refine codedExpression_reads (('c','l')) rfl (by decide) ?_
  unfold codedExpression
  exact (scanned (takeCode_gives _ 'c' 'l' rest)).bind (hcallee.bind (h.bind .pure))

theorem cast_reads {keyword : CastKeyword} (hcode : CastKeyword.ofCode? code = some keyword)
    (htype : Reads allowed r.type rest table type rest₁ table₁)
    (h : Reads allowed r.expression rest₁ table₁ operand rest₂ table₂) :
    Reads allowed (expression r) (code.1 :: code.2 :: rest) table
      (.castExpression keyword type operand) rest₂ table₂ := by
  unfold CastKeyword.ofCode? at hcode
  split at hcode
  all_goals
    cases hcode
    try
      refine codedExpression_reads _ rfl (by decide) ?_
      unfold codedExpression
      exact (scanned (takeCode_gives _ _ _ rest)).bind (htype.bind (h.bind .pure))

theorem typeOperator_reads {operator : TypeOperator}
    (hcode : TypeOperator.ofCode? code = some operator)
    (h : Reads allowed r.type rest table type rest₁ table₁) :
    Reads allowed (expression r) (code.1 :: code.2 :: rest) table
      (.typeOperatorExpression operator type) rest₁ table₁ := by
  unfold TypeOperator.ofCode? at hcode
  split at hcode
  all_goals
    cases hcode
    try
      refine codedExpression_reads _ rfl (by decide) ?_
      unfold codedExpression
      exact (scanned (takeCode_gives _ _ _ rest)).bind (h.bind .pure)

theorem expressionOperator_reads {operator : ExpressionOperator}
    (hcode : ExpressionOperator.ofCode? code = some operator)
    (h : Reads allowed r.expression rest table operand rest₁ table₁) :
    Reads allowed (expression r) (code.1 :: code.2 :: rest) table
      (.expressionOperatorExpression operator operand) rest₁ table₁ := by
  unfold ExpressionOperator.ofCode? at hcode
  split at hcode
  all_goals
    cases hcode
    try
      refine codedExpression_reads _ rfl (by decide) ?_
      unfold codedExpression
      exact (scanned (takeCode_gives _ _ _ rest)).bind (h.bind .pure)

theorem conversion_reads (htype : Reads allowed r.type rest table type rest₁ table₁)
    (hone : "_".toList.isPrefixOf rest₁ = false)
    (h : Reads allowed r.expression rest₁ table₁ operand rest₂ table₂) :
    Reads allowed (expression r) ('c' :: 'v' :: rest) table (.conversionExpression type [operand])
      rest₂ table₂ := by
  refine codedExpression_reads (('c','v')) rfl (by decide) ?_
  unfold codedExpression
  refine (scanned (takeCode_gives _ 'c' 'v' rest)).bind (htype.bind ?_)
  exact (scanned (consume_refuses hone)).bind (h.bind .pure)

theorem conversionOfList_reads (htype : Reads allowed r.type rest table type ('_' :: rest₁) table₁)
    (h : Reads allowed (expressionsToE r) rest₁ table₁ operands rest₂ table₂) :
    Reads allowed (expression r) ('c' :: 'v' :: rest) table (.conversionExpression type operands)
      rest₂ table₂ := by
  refine codedExpression_reads (('c','v')) rfl (by decide) ?_
  unfold codedExpression
  refine (scanned (takeCode_gives _ 'c' 'v' rest)).bind (htype.bind ?_)
  exact (scanned (consume_gives "_" rest₁)).bind (h.bind .pure)

theorem initList_reads (h : Reads allowed (expressionsToE r) rest table operands rest₁ table₁) :
    Reads allowed (expression r) ('i' :: 'l' :: rest) table
      (.initListExpression none operands) rest₁ table₁ := by
  refine codedExpression_reads (('i','l')) rfl (by decide) ?_
  unfold codedExpression
  exact (scanned (takeCode_gives _ 'i' 'l' rest)).bind (h.bind .pure)

theorem typedInitList_reads (htype : Reads allowed r.type rest table type rest₁ table₁)
    (h : Reads allowed (expressionsToE r) rest₁ table₁ operands rest₂ table₂) :
    Reads allowed (expression r) ('t' :: 'l' :: rest) table
      (.initListExpression (some type) operands) rest₂ table₂ := by
  refine codedExpression_reads (('t','l')) rfl (by decide) ?_
  unfold codedExpression
  exact (scanned (takeCode_gives _ 't' 'l' rest)).bind (htype.bind (h.bind .pure))

theorem sizeofTemplateParam_reads {i : Nat} (h : i ≤ 10 ^ numberDigitsMax) :
    Reads allowed (expression r) ('s' :: 'Z' :: (templateParamCode i ++ rest)) table
      (.sizeofPackExpression (.templateParam i)) rest table := by
  have hread :
    Reads allowed templateParam (templateParamCode i ++ rest) table (.templateParam i) rest
      table := templateParam_reads h rest
  obtain ⟨c,code,hcode,_⟩ := templateParamCode_head i
  rw [hcode] at hread ⊢
  refine codedExpression_reads (('s','Z')) rfl (by decide) ?_
  change Reads allowed sizeofPack _ _ _ _ _
  unfold sizeofPack
  refine (scanned (takeCode_gives _ 's' 'Z' _)).bind ?_
  exact (scanned (lookingAt_gives rfl)).bind (hread.bind .pure)

theorem sizeofFunctionParam_reads {number : Option Nat} {text : List Char}
    (h : FunctionParamCode number text) :
    Reads allowed (expression r) ('s' :: 'Z' :: (text ++ rest)) table
      (.sizeofPackExpression (.functionParam number)) rest table := by
  have hread : Reads allowed (liftM functionParam) (text ++ rest) table (.functionParam number) rest
      table := scanned (functionParam_gives h rest)
  refine codedExpression_reads (('s','Z')) rfl (by decide) ?_
  change Reads allowed sizeofPack _ _ _ _ _
  unfold sizeofPack
  refine (scanned (takeCode_gives _ 's' 'Z' _)).bind ?_
  cases h with
  | own =>
    refine (scanned (lookingAt_gives rfl)).bind (.ifNeg Bool.false_ne_true ?_)
    refine (scanned (lookingAt_gives rfl)).bind ((scanned (lookingAt_gives rfl)).bind ?_)
    exact .ifPos rfl (hread.bind .pure)
  | outer =>
    refine (scanned (lookingAt_gives rfl)).bind (.ifNeg Bool.false_ne_true ?_)
    refine (scanned (lookingAt_gives rfl)).bind ((scanned (lookingAt_gives rfl)).bind ?_)
    exact .ifPos rfl (hread.bind .pure)

theorem member_reads {access : MemberAccess} (hcode : AccessCode access code)
    (hobject : Reads allowed r.expression rest table object rest₁ table₁)
    (h : Reads allowed (r.unresolvedName false) rest₁ table₁ member rest₂ table₂) :
    Reads allowed (expression r) (code.1 :: code.2 :: rest) table
      (.memberExpression object access member) rest₂ table₂ := by
  have hread : ∀ x y, Reads allowed (memberExpression r access) (x :: y :: rest) table
      (.memberExpression object access member) rest₂ table₂ := by
    intro x y
    unfold memberExpression
    exact (scanned (takeCode_gives _ x y rest)).bind (hobject.bind (h.bind .pure))
  cases hcode with
  | dot => exact codedExpression_reads (('d','t')) rfl (by decide) (hread 'd' 't')
  | arrow => exact codedExpression_reads (('p','t')) rfl (by decide) (hread 'p' 't')

theorem memberPointer_reads (hobject : Reads allowed r.expression rest table object rest₁ table₁)
    (h : Reads allowed r.expression rest₁ table₁ member rest₂ table₂) :
    Reads allowed (expression r) ('d' :: 's' :: rest) table
      (.memberExpression object .dotStar member) rest₂ table₂ := by
  refine codedExpression_reads (('d','s')) rfl (by decide) ?_
  unfold codedExpression
  exact (scanned (takeCode_gives _ 'd' 's' rest)).bind (hobject.bind (h.bind .pure))

theorem packExpansion_reads (h : Reads allowed r.expression rest table operand rest₁ table₁) :
    Reads allowed (expression r) ('s' :: 'p' :: rest) table (.packExpansionExpression operand) rest₁
      table₁ := by
  refine codedExpression_reads (('s','p')) rfl (by decide) ?_
  unfold codedExpression
  exact (scanned (takeCode_gives _ 's' 'p' rest)).bind (h.bind .pure)

theorem throw_reads (h : Reads allowed r.expression rest table operand rest₁ table₁) :
    Reads allowed (expression r) ('t' :: 'w' :: rest) table (.throwExpression (some operand)) rest₁
      table₁ := by
  refine codedExpression_reads (('t','w')) rfl (by decide) ?_
  unfold codedExpression
  exact (scanned (takeCode_gives _ 't' 'w' rest)).bind (h.bind .pure)

theorem rethrow_reads :
    Reads allowed (expression r) ('t' :: 'r' :: rest) table (.throwExpression none) rest table := by
  refine codedExpression_reads (('t','r')) rfl (by decide) ?_
  unfold codedExpression
  exact (scanned (takeCode_gives _ 't' 'r' rest)).bind .pure

end

/-! Operators. -/

section
variable {o : Operator} {operand left right condition whenTrue whenFalse : Node}

theorem operator_reads (hkind : o.kind ∈ [.prefixOp,.postfixOp,.binary,.index,.conditional])
    (h : Reads allowed (operatorExpression r o.code) (o.code.1 :: o.code.2 :: rest) table node rest₁
      table₁) :
    Reads allowed (expression r) (o.code.1 :: o.code.2 :: rest) table node rest₁ table₁ := by
  have hname : o.code ∉ [('g','s'),('s','r'),('o','n'),('d','n')] := by cases o <;> decide
  refine codedExpression_reads _ (operator_isLower o) hname ?_
  rwa [codedExpression_operator hkind]

theorem unary_reads (hkind : o.kind = .prefixOp)
    (h : Reads allowed r.expression rest table operand rest₁ table₁) :
    Reads allowed (expression r) (o.code.1 :: o.code.2 :: rest) table
      (.unaryExpression o operand false) rest₁ table₁ := by
  refine operator_reads (by simp [hkind]) ?_
  unfold operatorExpression
  simp only [Operator.ofCode?_code,hkind]
  exact here_then fun _ _ => (scanned (takeCode_gives _ _ _ rest)).bind (h.bind .pure)

theorem afterOperand_reads (hkind : o.kind = .postfixOp)
    (hmark : "_".toList.isPrefixOf rest = false)
    (h : Reads allowed r.expression rest table operand rest₁ table₁) :
    Reads allowed (expression r) (o.code.1 :: o.code.2 :: rest) table
      (.unaryExpression o operand true) rest₁ table₁ := by
  refine operator_reads (by simp [hkind]) ?_
  unfold operatorExpression
  simp only [Operator.ofCode?_code,hkind]
  refine here_then fun _ _ => (scanned (takeCode_gives _ _ _ rest)).bind ?_
  exact (scanned (consume_refuses hmark)).bind (h.bind .pure)

/-- A trailing `_` marks the form before the operand. -/
theorem beforeOperand_reads (hkind : o.kind = .postfixOp)
    (h : Reads allowed r.expression rest table operand rest₁ table₁) :
    Reads allowed (expression r) (o.code.1 :: o.code.2 :: '_' :: rest) table
      (.unaryExpression o operand false) rest₁ table₁ := by
  refine operator_reads (by simp [hkind]) ?_
  unfold operatorExpression
  simp only [Operator.ofCode?_code,hkind]
  refine here_then fun _ _ => (scanned (takeCode_gives _ _ _ _)).bind ?_
  exact (scanned (consume_gives "_" rest)).bind (h.bind .pure)

theorem binary_reads (hkind : o.kind ∈ [.binary,.index])
    (hleft : Reads allowed r.expression rest table left rest₁ table₁)
    (hright : Reads allowed r.expression rest₁ table₁ right rest₂ table₂) :
    Reads allowed (expression r) (o.code.1 :: o.code.2 :: rest) table
      (.binaryExpression o left right) rest₂ table₂ := by
  have hread : Reads allowed (do
      let left ← r.expression
      return Node.binaryExpression o left (← r.expression)) rest table
      (Node.binaryExpression o left right) rest₂ table₂ := hleft.bind (hright.bind .pure)
  rcases List.mem_pair.mp hkind with hkind | hkind
  · refine operator_reads (by simp [hkind]) ?_
    unfold operatorExpression
    simp only [Operator.ofCode?_code,hkind]
    exact here_then fun _ _ => (scanned (takeCode_gives _ _ _ rest)).bind hread
  · refine operator_reads (by simp [hkind]) ?_
    unfold operatorExpression
    simp only [Operator.ofCode?_code,hkind]
    exact here_then fun _ _ => (scanned (takeCode_gives _ _ _ rest)).bind hread

theorem conditional_reads
    (hcondition : Reads allowed r.expression rest table condition rest₁ table₁)
    (htrue : Reads allowed r.expression rest₁ table₁ whenTrue rest₂ table₂)
      (hfalse : Reads allowed r.expression rest₂ table₂ whenFalse rest₃ table₃) :
    Reads allowed (expression r) ('q' :: 'u' :: rest) table
      (.conditionalExpression condition whenTrue whenFalse) rest₃ table₃ := by
  refine operator_reads (o := .conditional) (by decide) ?_
  unfold operatorExpression
  simp only [Operator.ofCode?_code]
  refine here_then fun _ _ => (scanned (takeCode_gives _ _ _ rest)).bind ?_
  exact hcondition.bind (htrue.bind (hfalse.bind .pure))

end

/-! New objects. -/

/-- What follows the type of a new object, and what is made of it. -/
def initialized (r : Rules) (wrap : Option (List Node) → Node) : Parser Node := do
  let initializer ←
    if ← consume "pi" then some <$> expressionsToE r
    else if ← lookingAt "il" then do pure (some [← r.expression])
    else do
      expect "E" "new expression"
      pure none
  return wrap initializer

section
variable {wrap : Option (List Node) → Node} {operands placement : List Node} {type operand : Node}

theorem uninitialized_reads :
    Reads allowed (initialized r wrap) ('E' :: rest) table (wrap none) rest table := by
  unfold initialized
  refine (scanned (consume_refuses rfl)).bind ((scanned (lookingAt_gives rfl)).bind ?_)
  exact (scanned (expect_gives "E" _ rest)).bind .pure

theorem initialized_reads (h : Reads allowed (expressionsToE r) rest table operands rest₁ table₁) :
    Reads allowed (initialized r wrap) ('p' :: 'i' :: rest) table (wrap (some operands)) rest₁
      table₁ := by
  unfold initialized
  refine (scanned (consume_gives "pi" rest)).bind ((scanned (lookingAt_gives rfl)).bind ?_)
  exact (h.map some).bind .pure

theorem braces_reads
    (h : Reads allowed r.expression ('i' :: 'l' :: rest) table operand rest₁ table₁) :
    Reads allowed (initialized r wrap) ('i' :: 'l' :: rest) table (wrap (some [operand])) rest₁
      table₁ := by
  unfold initialized
  refine (scanned (consume_refuses rfl)).bind ((scanned (lookingAt_gives rfl)).bind ?_)
  exact h.bind .pure

theorem newExpression_reads (array globalScope : Bool)
    (hplacement : Items allowed r.expression (fun _ => StartsWith isExpressionStart) rest
      table placement ('_' :: rest₁) table₁)
    (htype : Reads allowed r.type rest₁ table₁ type rest₂ table₂)
    (h : Reads allowed
      (initialized r (.newExpression placement type · array globalScope)) rest₂ table₂
      node rest₃ table₃) :
    Reads allowed (newExpression r globalScope)
      ('n' :: (if array then 'a' else 'w') :: rest) table node rest₃ table₃ := by
  have hitems := itemsUntil_reads hplacement
    (fun _ _ _ hstart => scanned (consume_refuses (hstart.no_literal rfl)))
    (scanned (consume_gives "_" rest₁))
  unfold newExpression
  cases array with
  | true =>
    refine (scanned (lookingAt_gives rfl)).bind ((scanned (takeCode_gives _ 'n' 'a' rest)).bind ?_)
    exact hitems.bind (htype.bind h)
  | false =>
    refine (scanned (lookingAt_gives rfl)).bind ((scanned (takeCode_gives _ 'n' 'w' rest)).bind ?_)
    exact hitems.bind (htype.bind h)

theorem deleteExpression_reads (array globalScope : Bool)
    (h : Reads allowed r.expression rest table operand rest₁ table₁) :
    Reads allowed (deleteExpression r globalScope)
      ('d' :: (if array then 'a' else 'l') :: rest) table
      (.deleteExpression operand array globalScope) rest₁ table₁ := by
  unfold deleteExpression
  cases array with
  | true =>
    refine (scanned (lookingAt_gives rfl)).bind ((scanned (takeCode_gives _ 'd' 'a' rest)).bind ?_)
    exact h.bind .pure
  | false =>
    refine (scanned (lookingAt_gives rfl)).bind ((scanned (takeCode_gives _ 'd' 'l' rest)).bind ?_)
    exact h.bind .pure

end

/-! What `gs` may stand in front of. -/

theorem new_reads (array globalScope : Bool)
    (h : Reads allowed (newExpression r globalScope)
      ('n' :: (if array then 'a' else 'w') :: rest) table node rest₁ table₁) :
    Reads allowed (expression r) ((if globalScope then ['g','s'] else []) ++
      'n' :: (if array then 'a' else 'w') :: rest) table node rest₁ table₁ := by
  cases globalScope with
  | true =>
    unfold expression
    refine here_then fun start hstart => ?_
    rw [hstart]
    refine (scanned (expect_gives "gs" _ _)).bind ?_
    refine (scanned (lookingAt_gives rfl)).bind ((scanned (lookingAt_gives rfl)).bind ?_)
    cases array <;> exact .ifPos rfl h
  | false =>
    cases array with
    | true => exact codedExpression_reads (('n','a')) rfl (by decide) h
    | false => exact codedExpression_reads (('n','w')) rfl (by decide) h

theorem delete_reads (array globalScope : Bool)
    (h : Reads allowed (deleteExpression r globalScope)
      ('d' :: (if array then 'a' else 'l') :: rest) table node rest₁ table₁) :
    Reads allowed (expression r) ((if globalScope then ['g','s'] else []) ++
      'd' :: (if array then 'a' else 'l') :: rest) table node rest₁ table₁ := by
  cases globalScope with
  | true =>
    unfold expression
    refine here_then fun start hstart => ?_
    rw [hstart]
    refine (scanned (expect_gives "gs" _ _)).bind ?_
    refine (scanned (lookingAt_gives rfl)).bind ((scanned (lookingAt_gives rfl)).bind ?_)
    refine .ifNeg (by cases array <;> exact Bool.false_ne_true) ?_
    refine (scanned (lookingAt_gives rfl)).bind ((scanned (lookingAt_gives rfl)).bind ?_)
    cases array <;> exact .ifPos rfl h
  | false =>
    cases array with
    | true => exact codedExpression_reads (('d','a')) rfl (by decide) h
    | false => exact codedExpression_reads (('d','l')) rfl (by decide) h

theorem globalName_reads (globalScope : Bool)
    (hstart : NameStart rest ∨ ∃ more, rest = 's' :: 'r' :: more)
    (h : Reads allowed (r.unresolvedName globalScope) rest table node rest₁ table₁) :
    Reads allowed (expression r) ((if globalScope then ['g','s'] else []) ++ rest) table node rest₁
      table₁ := by
  cases globalScope with
  | true =>
    have hothers : ∀ literal ∈ ["nw","na","dl","da"], literal.toList.isPrefixOf rest = false := by
      rcases hstart with hname | ⟨more,rfl⟩
      · cases hname with
        | @digit c more hc =>
          have hne : 'n' ≠ c ∧ 'd' ≠ c := by
            constructor <;>
              rintro rfl <;>
              cases hc
          simp [List.isPrefixOf,hne.1,hne.2]
        | operator => simp [List.isPrefixOf]
        | destructor => simp [List.isPrefixOf]
      · simp [List.isPrefixOf]
    unfold expression
    refine here_then fun start hstart => ?_
    rw [hstart]
    refine (scanned (expect_gives "gs" _ _)).bind ?_
    refine (scanned (lookingAt_gives (hothers "nw" (by simp)))).bind ?_
    refine (scanned (lookingAt_gives (hothers "na" (by simp)))).bind (.ifNeg Bool.false_ne_true ?_)
    refine (scanned (lookingAt_gives (hothers "dl" (by simp)))).bind ?_
    refine (scanned (lookingAt_gives (hothers "da" (by simp)))).bind (.ifNeg Bool.false_ne_true ?_)
    exact h
  | false => exact nameExpression_reads hstart h

/-! Template arguments that are no types. -/

theorem expressionArg_reads (h : Reads allowed r.expression rest table node ('E' :: rest₁) table₁) :
    Reads allowed (templateArg r) ('X' :: rest) table node rest₁ table₁ := by
  unfold templateArg
  refine (scanned (peek_gives 0)).bind ((scanned (expect_gives "X" _ rest)).bind ?_)
  exact h.bind ((scanned (expect_gives "E" _ rest₁)).bind .pure)

theorem literalArg_reads (h : Reads allowed r.exprPrimary ('L' :: rest) table node rest₁ table₁) :
    Reads allowed (templateArg r) ('L' :: rest) table node rest₁ table₁ := by
  unfold templateArg
  exact (scanned (peek_gives 0)).bind h

end

end Grammar

end MangledNames
