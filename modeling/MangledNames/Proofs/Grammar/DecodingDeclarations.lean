import MangledNames.Proofs.Grammar.DecodingInFull
import MangledNames.Proofs.Grammar.DecodingEncodings
import MangledNames.Proofs.Grammar.Declaration
set_option autoImplicit false

/-!
Reading the symbols of declared functions: their names component by component, and what follows the
names.
-/

namespace MangledNames.Grammar

open Cursor

section
variable {allowed : Bool} {r : Rules} {n : Nat} {rest rest' : List Char}
  {table table' : Substitutions}

theorem Plain.ne_functionType {type : Node} (h : Plain type) (f : FunctionType Node) :
    type ≠ .functionType f := by
  cases h with
  | wrapped hw => cases hw <;> exact Node.noConfusion
  | _ => exact Node.noConfusion

theorem Plain.spellable {type : Node} (h : Plain type) : Spellable (.type type) := by
  induction h with
  | builtin h => exact .builtin h
  | templateParam h => exact .templateParam h
  | wrapped hw _ _ ih => exact .wrapped hw ih
  | qualified hcv hqualified h ih => exact .qualified hcv hqualified h.ne_functionType ih

/-- Where arguments are not allowed, a plain type ends before them. -/
theorem Plain.reads {type : Node} (h : Plain type) (hn : type.typeLevels ≤ n)
    (table : Substitutions) (rest : List Char) : ∃ table',
    Reads false (Rules.levels n).type (type.typeCode ++ rest) table type rest table' := by
  induction h generalizing n with
  | builtin h =>
    obtain rfl := h.code_eq
    obtain ⟨k,rfl⟩ := Nat.exists_eq_add_of_le' hn
    exact ⟨_,nested_reads (builtin_reads h)⟩
  | templateParam h =>
    obtain ⟨k,rfl⟩ := Nat.exists_eq_add_of_le' hn
    exact ⟨_,nested_reads (templateParamType_reads h rfl)⟩
  | wrapped hw _ _ ih =>
    rw [hw.typeLevels_wrap] at hn
    rw [hw.typeCode_wrap,List.append_assoc]
    obtain ⟨k,rfl⟩ := Nat.exists_eq_add_of_le' (show 1 ≤ n by omega)
    obtain ⟨table',hinner⟩ := ih (n := k) (by omega)
    exact ⟨_,nested_reads (wrapped_reads hw hinner)⟩
  | @qualified inner cv hcv hqualified h ih =>
    simp only [Node.typeLevels] at hn
    simp only [Node.typeCode,List.append_assoc]
    obtain ⟨k,rfl⟩ := Nat.exists_eq_add_of_le' (show 1 ≤ n by omega)
    obtain ⟨table',hinner⟩ := ih (n := k) (by omega)
    obtain ⟨_,_,hspelled⟩ := h.spellable.spells_inFull table
    have hhead : ∀ c ∈ (inner.typeCode ++ rest).head?, c ∉ ['r','V','K'] := by
      have hne : inner.typeCode ≠ [] := Opens.ne_nil hspelled.starts
      rw [List.head?_append_of_ne_nil _ hne]
      exact hspelled.unqualified hqualified h.ne_functionType
    rw [← qualified_eq h.ne_functionType]
    exact ⟨_,nested_reads (qualified_reads hcv hhead hinner)⟩

/-! Operators, conversions, constructors and destructors. -/

theorem operator_isLower (o : Operator) : isLower o.code.1 = true := by
  cases o <;> decide

theorem isWordStart_lower {c : Char} (h : isLower c = true) : isWordStart c = true := by
  simp [isWordStart,h]

theorem operatorName_reads (o : Operator) :
    Reads allowed (operatorName r) (o.code.1 :: o.code.2 :: rest) table ⟨.operatorName o,{}⟩ rest
      table := by
  have hvendor : (o.code.1 == 'v' && isDigit o.code.2) = false := by cases o <;> decide
  have hconversion : o.code ≠ ('c','v') ∧ o.code ≠ ('l','i') := by cases o <;> decide
  have hoperator := o.ofCode?_code
  generalize o.code = code at *
  unfold operatorName
  refine here_then fun start _ => (scanned (takeCode_gives _ _ _ rest)).bind ?_
  split
  · exact absurd (by assumption) hconversion.1
  · exact absurd (by assumption) hconversion.2
  · rw [hvendor,hoperator]
    exact .pure

/-- The type of a conversion takes no arguments. -/
theorem conversionName_reads {type : Node} (h : Reads false r.type rest table type rest' table') :
    Reads allowed (operatorName r) ('c' :: 'v' :: rest) table
      ⟨.conversionOperatorName type,{ ctorDtorConversion := true }⟩ rest' table' := by
  unfold operatorName
  refine here_then fun start _ => (scanned (takeCode_gives _ 'c' 'v' rest)).bind ?_
  exact (allowingTemplateArgs_reads h).bind .pure

theorem isDigit_of_isLower {c : Char} (h : isLower c = true) : isDigit c = false := by
  simp only [isLower,isDigit,Bool.and_eq_true,decide_eq_true_eq,Bool.and_eq_false_iff,
    decide_eq_false_iff_not] at h ⊢
  exact .inr fun hle => absurd (Char.le_trans h.1 hle) (by decide)

/-- What starts with a lower case letter is the name of an operator. -/
theorem unqualifiedOperator_reads {c : Char} {named : Named} (hc : isLower c = true)
    (h : Reads allowed (operatorName r) (c :: rest) table named rest' table')
    (htags : "B".toList.isPrefixOf rest' = false) :
    Reads allowed (unqualifiedName r) (c :: rest) table named rest' table' := by
  have hdigit : (c :: rest)[0]?.any isDigit = false := isDigit_of_isLower hc
  have hword := isWordStart_lower hc
  unfold unqualifiedName
  refine (scanned (peekIs_gives hdigit)).bind ?_
  refine (scanned (lookingAt_gives (isPrefixOf_word hword rfl))).bind ?_
  refine (scanned (lookingAt_gives (isPrefixOf_word hword rfl))).bind ?_
  refine (scanned (peekIs_gives (show (c :: rest)[0]?.any isLower = true from hc))).bind ?_
  exact h.bind ((abiTags_reads _ htags).bind .pure)

theorem OwnName.head {name : OwnName} (h : name.Proper) :
    ∃ c code, isWordStart c = true ∧ name.code = c :: code := by
  cases name with
  | identifier name =>
    obtain ⟨c,code,hc,hcode⟩ := identifierCode_head name
    exact ⟨c,code,isWordStart_digit hc,hcode⟩
  | operator o => exact ⟨o.code.1,[o.code.2],isWordStart_lower (operator_isLower o),rfl⟩

theorem OwnName.reads {name : OwnName} (h : name.Proper)
    (htags : "B".toList.isPrefixOf rest = false) :
    Reads allowed (Rules.levels (n + 1)).unqualifiedName (name.code ++ rest) table
      ⟨name.node,{}⟩ rest table := by
  cases name with
  | identifier name => exact unqualified_reads h htags
  | operator o =>
    exact nested_reads (unqualifiedOperator_reads (operator_isLower o) (operatorName_reads o) htags)

theorem ctorDtorComponent_reads (kind : CtorDtorKind) {scope className : Node} {traits : NameTraits}
    (hscope : expandAbbreviation scope = scope) (hclass : scope.className = className)
    (htags : "B".toList.isPrefixOf rest = false) :
    Reads allowed (nestedComponent r (some scope) traits) (kind.code.1 :: kind.code.2 :: rest) table
      ⟨.nestedName scope (.ctorDtorName kind className none),{ traits with
        endsWithTemplateArgs := false
        ctorDtorConversion := true }⟩ rest table := by
  have hname : Reads allowed (ctorDtorName r scope) (kind.code.1 :: kind.code.2 :: rest) table
      ⟨.ctorDtorName kind className none,{ ctorDtorConversion := true }⟩ rest table := by
    have hinheriting : "CI".toList.isPrefixOf (kind.code.1 :: kind.code.2 :: rest) = false := by
      cases kind <;> rfl
    have hkind := kind.ofCode?_code
    generalize kind.code = code at *
    unfold ctorDtorName
    refine here_then fun start _ => (scanned (consume_refuses hinheriting)).bind ?_
    refine .ifNeg Bool.false_ne_true ((scanned (takeCode_gives _ _ _ rest)).bind ?_)
    simp only [hkind,hclass]
    exact .ifNeg Bool.false_ne_true (Gives.bind .pure ((build_reads rfl).bind .pure))
  have hcomponent : Reads allowed (do
      let named ← ctorDtorName r scope
      return {
        node := .nestedName (expandAbbreviation scope) (← abiTags named.node)
        traits := { traits with endsWithTemplateArgs := false, ctorDtorConversion := true } :
          Named }) (kind.code.1 :: kind.code.2 :: rest) table
      ⟨.nestedName scope (.ctorDtorName kind className none),{ traits with
        endsWithTemplateArgs := false
        ctorDtorConversion := true }⟩ rest table := by
    rw [hscope]
    exact hname.bind ((abiTags_reads _ htags).bind .pure)
  unfold nestedComponent
  refine (scanned (peek_gives 0)).bind ?_
  cases hdtor : kind.isDestructor with
  | false =>
    have hc : kind.code.1 = 'C' := by cases kind <;> first | rfl | cases hdtor
    rw [hc] at hcomponent ⊢
    exact hcomponent
  | true =>
    have hc : kind.code.1 = 'D' := by cases kind <;> first | rfl | cases hdtor
    have hdecltype :
        ('D' :: kind.code.2 :: rest)[1]?.any (fun c => c == 't' || c == 'T') = false := by
      cases kind <;> rfl
    have hbinding : "DC".toList.isPrefixOf ('D' :: kind.code.2 :: rest) = false := by
      cases kind <;> rfl
    rw [hc] at hcomponent ⊢
    refine (scanned (peekIs_gives hdecltype)).bind (.ifNeg Bool.false_ne_true ?_)
    exact (scanned (lookingAt_gives hbinding)).bind (.ifNeg Bool.false_ne_true hcomponent)

/-! Classes. -/

theorem className_classStep (scope : Option Node) (step : ClassStep) :
    (step.node scope).className = .sourceName step.identifier := by
  obtain ⟨identifier,arguments⟩ := step
  cases scope <;> cases arguments <;> rfl

theorem expandAbbreviation_classStep (scope : Option Node) (step : ClassStep) :
    expandAbbreviation (step.node scope) = step.node scope := by
  obtain ⟨identifier,arguments⟩ := step
  cases scope <;> cases arguments <;> rfl

/-- What a class is read from: neither tags nor the end of the name follow. -/
theorem ClassStep.Proper.rounds {step : ClassStep} (h : step.Proper) (hn : step.levels ≤ n)
    (scope : Option Node) (traits : NameTraits) (table : Substitutions)
    (htags : "B".toList.isPrefixOf rest = false) (hlast : "E".toList.isPrefixOf rest = false) :
    ∃ ends table', Rounds allowed (nestedRound (Rules.levels n)) (scope,traits) (step.code ++ rest)
      table (some (step.node scope),{ traits with endsWithTemplateArgs := ends }) rest table' := by
  obtain ⟨identifier,arguments⟩ := step
  obtain ⟨hidentifier,harguments⟩ := h
  cases arguments with
  | none =>
    simp only [ClassStep.code,argumentsCode,List.append_nil]
    obtain ⟨k,rfl⟩ := Nat.exists_eq_add_of_le' hn
    exact ⟨_,_,nameRound_reads hidentifier htags hlast⟩
  | some types =>
    have htext : ClassStep.code ⟨identifier,some types⟩ ++ rest =
        identifierCode identifier ++ 'I' :: (Node.typesCode types ++ 'E' :: rest) := by
      simp [ClassStep.code,argumentsCode]
    simp only [ClassStep.levels,argumentsLevels] at hn
    obtain ⟨k,rfl⟩ := Nat.exists_eq_add_of_le' (show 2 ≤ n by omega)
    obtain ⟨table',htypes⟩ := (harguments types rfl).reads_inFull true (n := k)
      (by simp only [Phrase.levels]; omega) (table.append (join scope (.sourceName identifier)))
    rw [htext]
    exact ⟨_,_,(nameRound_reads hidentifier rfl rfl).more (argumentsRound_reads htypes hlast)⟩

theorem ClassStep.head (step : ClassStep) : ∃ c code, isDigit c = true ∧ step.code = c :: code := by
  obtain ⟨c,code,hc,hcode⟩ := identifierCode_head step.identifier
  exact ⟨c,code ++ argumentsCode step.arguments,hc,by simp [ClassStep.code,hcode]⟩

theorem classSteps_head (outer : List ClassStep) (inner : ClassStep) :
    ∃ c code, isDigit c = true ∧ (outer ++ [inner]).flatMap ClassStep.code = c :: code := by
  cases outer with
  | nil =>
    obtain ⟨c,code,hc,hcode⟩ := inner.head
    exact ⟨c,code,hc,by simp [hcode]⟩
  | cons step steps =>
    obtain ⟨c,code,hc,hcode⟩ := step.head
    exact ⟨c,code ++ (steps ++ [inner]).flatMap ClassStep.code,hc,by simp [hcode]⟩

theorem classSteps_rounds (allowed : Bool) {steps : List ClassStep}
    (h : ∀ step ∈ steps, step.Proper) (hn : stepsLevels steps ≤ n) (scope : Option Node)
    (traits : NameTraits) (table : Substitutions) (htags : "B".toList.isPrefixOf rest = false)
    (hlast : "E".toList.isPrefixOf rest = false) :
    ∃ ends table', Rounds allowed (nestedRound (Rules.levels n)) (scope,traits)
      (steps.flatMap ClassStep.code ++ rest) table
      (scopeOf scope steps,{ traits with endsWithTemplateArgs := ends }) rest table' := by
  induction steps generalizing scope traits table with
  | nil => exact ⟨traits.endsWithTemplateArgs,table,.none _ _ _⟩
  | cons step steps ih =>
    rw [List.forall_mem_cons] at h
    simp only [stepsLevels] at hn
    simp only [List.flatMap_cons,List.append_assoc]
    have hnext : "B".toList.isPrefixOf (steps.flatMap ClassStep.code ++ rest) = false ∧
        "E".toList.isPrefixOf (steps.flatMap ClassStep.code ++ rest) = false := by
      cases steps with
      | nil => exact ⟨htags,hlast⟩
      | cons step steps =>
        obtain ⟨c,code,hc,hcode⟩ := step.head
        simp only [List.flatMap_cons,hcode]
        exact scopeEnd_refuses (.inl hc) _
    obtain ⟨ends,table',hfirst⟩ := h.1.rounds (n := n) (by omega) scope traits table hnext.1 hnext.2
    obtain ⟨ends',table'',hothers⟩ := ih h.2 (by omega) (some (step.node scope))
      { traits with endsWithTemplateArgs := ends } table'
    exact ⟨ends',table'',hfirst.more hothers⟩

/-! The last component with its arguments. -/

/-- After the last component come its arguments or the end of the name. -/
theorem argumentsCode_tags (arguments : Option (List Node)) (rest : List Char) :
    "B".toList.isPrefixOf (argumentsCode arguments ++ 'E' :: rest) = false := by
  cases arguments <;> rfl

/-- What a member is called neither tags its class nor ends the name. -/
theorem MemberName.starts {name : MemberName} {arguments : Option (List Node)}
    (h : name.Proper arguments) (rest : List Char) :
    "B".toList.isPrefixOf (name.code ++ rest) = false ∧
      "E".toList.isPrefixOf (name.code ++ rest) = false := by
  cases name with
  | own name =>
    obtain ⟨c,code,hc,hcode⟩ := OwnName.head h
    simp only [MemberName.code,hcode]
    exact ⟨isPrefixOf_word hc rfl,isPrefixOf_word hc rfl⟩
  | ctorDtor kind => cases kind <;> exact ⟨rfl,rfl⟩
  | conversion type => exact ⟨rfl,rfl⟩

theorem conversionType_reads {type : Node} {arguments : Option (List Node)}
    (h : (MemberName.conversion type).Proper arguments) (hn : type.typeLevels ≤ n)
    (table : Substitutions) (rest : List Char) : ∃ table',
    Reads false (Rules.levels n).type (type.typeCode ++ (argumentsCode arguments ++ 'E' :: rest))
      table type (argumentsCode arguments ++ 'E' :: rest) table' := by
  cases arguments with
  | none =>
    obtain ⟨table',hread⟩ := h.1.reads_inFull false hn table
    exact ⟨table',hread _ (closed_of_head (by decide))⟩
  | some types => exact (h.2 rfl).reads hn table _

theorem memberName_rounds (allowed : Bool) {name : MemberName} {arguments : Option (List Node)}
    (h : name.Proper arguments) (hn : name.levels ≤ n) (scope : Option Node)
    (inner : ClassStep) (traits : NameTraits) (table : Substitutions) (rest : List Char) : ∃ table',
    Rounds allowed (nestedRound (Rules.levels n)) (some (inner.node scope),traits)
      (name.code ++ (argumentsCode arguments ++ 'E' :: rest)) table
      (some (.nestedName (inner.node scope) (name.node inner)),{ traits with
        endsWithTemplateArgs := false
        ctorDtorConversion := traits.ctorDtorConversion || name.isCtorDtorConversion })
      (argumentsCode arguments ++ 'E' :: rest) table' := by
  have htags := argumentsCode_tags arguments rest
  cases name with
  | own name =>
    obtain ⟨c,code,hc,hcode⟩ := OwnName.head h
    obtain ⟨k,rfl⟩ := Nat.exists_eq_add_of_le' hn
    have hname : Reads allowed (Rules.levels (k + 1)).unqualifiedName
        (name.code ++ (argumentsCode arguments ++ 'E' :: rest)) table ⟨name.node,{}⟩
        (argumentsCode arguments ++ 'E' :: rest) table := OwnName.reads h htags
    simp only [MemberName.code]
    rw [hcode] at hname ⊢
    exact ⟨_,wordRound_reads _ traits hc hname (by simp) rfl⟩
  | ctorDtor kind =>
    have hstart : ∀ literal ∈ ["E","L","M","S"], literal.toList.isPrefixOf
        (kind.code.1 :: kind.code.2 :: (argumentsCode arguments ++ 'E' :: rest)) = false := by
      cases kind <;> simp [CtorDtorKind.code,List.isPrefixOf]
    have hscope := expandAbbreviation_classStep scope inner
    have hclass := className_classStep scope inner
    simp only [MemberName.isCtorDtorConversion,Bool.or_true]
    refine ⟨_,.one
      (component_reads hstart (ctorDtorComponent_reads kind hscope hclass htags) rfl) ?_⟩
    simp [MemberName.code]
  | conversion type =>
    simp only [MemberName.levels] at hn
    obtain ⟨k,rfl⟩ := Nat.exists_eq_add_of_le' (show 1 ≤ n by omega)
    obtain ⟨table',htype⟩ := conversionType_reads h (n := k) (by omega) table rest
    have hname : Reads allowed (Rules.levels (k + 1)).unqualifiedName
        ((MemberName.conversion type).code ++ (argumentsCode arguments ++ 'E' :: rest)) table
        ⟨.conversionOperatorName type,{ ctorDtorConversion := true }⟩
        (argumentsCode arguments ++ 'E' :: rest) table' :=
      nested_reads (unqualifiedOperator_reads rfl (conversionName_reads htype) htags)
    exact ⟨_,wordRound_reads _ traits (isWordStart_lower rfl) hname (by simp; omega) rfl⟩

theorem arguments_rounds (allowed : Bool) {arguments : Option (List Node)}
    (h : ProperArguments arguments) (hn : argumentsLevels arguments ≤ n) (node : Node)
    (traits : NameTraits) (table : Substitutions) (rest : List Char) : ∃ table',
    Rounds allowed (nestedRound (Rules.levels n))
      (some node,{ traits with endsWithTemplateArgs := false })
      (argumentsCode arguments ++ 'E' :: rest) table
      (some (withArguments node arguments),{ traits with endsWithTemplateArgs := arguments.isSome })
      ('E' :: rest) table' := by
  cases arguments with
  | none => exact ⟨table,.none _ _ _⟩
  | some types =>
    have htext : argumentsCode (some types) ++ 'E' :: rest =
        'I' :: (Node.typesCode types ++ 'E' :: 'E' :: rest) := by simp [argumentsCode]
    simp only [argumentsLevels] at hn
    obtain ⟨k,rfl⟩ := Nat.exists_eq_add_of_le' (show 2 ≤ n by omega)
    obtain ⟨table',htypes⟩ := (h types rfl).reads_inFull true (n := k)
      (by simp only [Phrase.levels]; omega) table
    rw [htext]
    exact ⟨_,argumentsRound_reads htypes rfl⟩

/-- What the name of a function says about the rest of its symbol. -/
def Placement.traits (placement : Placement) (arguments : Option (List Node)) : NameTraits where
  cv := placement.cv
  ref := placement.ref
  endsWithTemplateArgs := arguments.isSome
  ctorDtorConversion := placement.isCtorDtorConversion

theorem scopeOf_append (scope : Option Node) (outer : List ClassStep) (inner : ClassStep) :
    scopeOf scope (outer ++ [inner]) = some (inner.node (scopeOf scope outer)) := by
  simp [scopeOf]

theorem memberName_reads (allowed : Bool) {outer : List ClassStep} {inner : ClassStep}
    {name : MemberName} {cv : CvQualifiers} {ref : Option ReferenceKind}
    {arguments : Option (List Node)}
      (h : (Placement.member outer inner name cv ref).Proper arguments)
    (harguments : ProperArguments arguments)
    (hn : (Placement.member outer inner name cv ref).levels arguments ≤ n)
    (table : Substitutions) (rest : List Char) : ∃ table',
    Reads allowed (Rules.levels n).name
      ((Placement.member outer inner name cv ref).code arguments ++ rest) table
      ⟨withArguments (Placement.member outer inner name cv ref).node arguments,
        (Placement.member outer inner name cv ref).traits arguments⟩ rest table' := by
  obtain ⟨houter,hinner,hname⟩ := h
  have hsteps : ∀ step ∈ outer ++ [inner], step.Proper := by
    simpa [or_imp,forall_and] using ⟨houter,hinner⟩
  have htext : (Placement.member outer inner name cv ref).code arguments ++ rest =
      'N' :: (cvCode cv ++ (refCode ref ++ ((outer ++ [inner]).flatMap ClassStep.code ++
        (name.code ++ (argumentsCode arguments ++ 'E' :: rest))))) := by
    simp [Placement.code]
  simp only [Placement.levels] at hn
  obtain ⟨k,rfl⟩ := Nat.exists_eq_add_of_le' (show 2 ≤ n by omega)
  obtain ⟨htags,hlast⟩ := MemberName.starts hname (argumentsCode arguments ++ 'E' :: rest)
  obtain ⟨ends,table₁,hclasses⟩ := classSteps_rounds allowed hsteps (n := k) (by omega) none
    { cv := cv, ref := ref } table htags hlast
  rw [scopeOf_append] at hclasses
  obtain ⟨table₂,hown⟩ :=
    memberName_rounds allowed hname (n := k) (by omega) (scopeOf none outer) inner
    { cv := cv, ref := ref, endsWithTemplateArgs := ends } table₁ rest
  obtain ⟨table₃,hends⟩ := arguments_rounds allowed harguments (n := k) (by omega) _
    { cv := cv, ref := ref, ctorDtorConversion := name.isCtorDtorConversion } table₂ rest
  have hrounds := (hclasses.more hown).more hends
  obtain ⟨c,code,hc,hcode⟩ := classSteps_head outer inner
  rw [htext]
  rw [hcode] at hrounds ⊢
  exact ⟨table₃,nested_reads (name_of_nestedName (nested_reads
    (nestedName_reads cv ref (.inl hc) (isPrefixOf_word (isWordStart_digit hc) rfl) hrounds)))⟩

theorem freeName_reads (allowed : Bool) {name : OwnName} {arguments : Option (List Node)}
    (h : name.Proper) (harguments : ProperArguments arguments)
    (hn : (Placement.free name).levels arguments ≤ n) (table : Substitutions)
    (hrest : Closed rest) : ∃ table',
    Reads allowed (Rules.levels n).name ((Placement.free name).code arguments ++ rest) table
      ⟨withArguments name.node arguments,(Placement.free name).traits arguments⟩ rest table' := by
  obtain ⟨c,code,hc,hcode⟩ := OwnName.head h
  cases arguments with
  | none =>
    simp only [Placement.code,argumentsCode,List.append_nil,hcode]
    obtain ⟨k,rfl⟩ := Nat.exists_eq_add_of_le' hn
    have hown : Reads allowed (Rules.levels (k + 1)).unqualifiedName (name.code ++ rest) table
        ⟨name.node,{}⟩ rest table := OwnName.reads h hrest.tags
    rw [hcode] at hown
    exact ⟨_,nested_reads (name_reads hc hrest.arguments hown)⟩
  | some types =>
    have htext : (Placement.free name).code (some types) ++ rest =
        name.code ++ 'I' :: (Node.typesCode types ++ 'E' :: rest) := by
      simp [Placement.code,argumentsCode]
    simp only [Placement.levels,argumentsLevels] at hn
    obtain ⟨k,rfl⟩ := Nat.exists_eq_add_of_le' (show 3 ≤ n by omega)
    have hown : Reads allowed (Rules.levels (k + 2)).unqualifiedName
        (name.code ++ 'I' :: (Node.typesCode types ++ 'E' :: rest)) table ⟨name.node,{}⟩
        ('I' :: (Node.typesCode types ++ 'E' :: rest)) table := OwnName.reads h rfl
    obtain ⟨table',htypes⟩ := (harguments types rfl).reads_inFull true (n := k)
      (by simp only [Phrase.levels]; omega) (table.append name.node)
    rw [htext]
    rw [hcode] at hown ⊢
    exact ⟨_,nested_reads (templateName_reads hc hown (arguments_reads htypes rest))⟩

theorem placement_reads (allowed : Bool) {placement : Placement} {arguments : Option (List Node)}
    (h : placement.Proper arguments) (harguments : ProperArguments arguments)
    (hn : placement.levels arguments ≤ n) (table : Substitutions)
    (hrest : Closed rest) : ∃ table',
    Reads allowed (Rules.levels n).name (placement.code arguments ++ rest) table
      ⟨withArguments placement.node arguments,placement.traits arguments⟩ rest table' := by
  cases placement with
  | free name => exact freeName_reads allowed h harguments hn table hrest
  | member outer inner name cv ref => exact memberName_reads allowed h harguments hn table rest

/-- No special name starts as a function does. -/
theorem Placement.not_special {placement : Placement} {arguments : Option (List Node)}
    (h : placement.Proper arguments) (rest : List Char) :
    (placement.code arguments ++ rest)[0]?.any (fun c => c == 'T' || c == 'G') = false := by
  cases placement with
  | member => rfl
  | free name =>
    obtain ⟨c,code,hc,hcode⟩ := OwnName.head h
    simp only [Placement.code,hcode]
    exact Grammar.not_special hc

theorem Declaration.parameters_read {d : Declaration} (h : d.Proper)
    (hn : Node.typesLevels d.parameters ≤ n) (table : Substitutions) : ∃ table',
    Reads true (encodingParameters (Rules.levels n)) (Node.parametersCode d.parameters) table
      d.parameters [] table' := by
  have hspellable := h.parameters
  have hvoid := h.notVoid
  cases hparameters : d.parameters with
  | nil => exact ⟨table,noEncodingParameters_reads⟩
  | cons type types =>
    rw [hparameters] at hn hspellable hvoid
    obtain ⟨table',hread⟩ := hspellable.reads_inFull true hn table
    have hitems := hread [] ⟨rfl,rfl⟩
    rw [List.append_nil] at hitems
    exact ⟨table',encodingParameters_reads (hvoid type List.mem_cons_self) hitems⟩

theorem Declaration.parameters_open {d : Declaration} (h : d.Proper) :
    ∃ node, Opens node (Node.parametersCode d.parameters) := by
  have hspellable := h.parameters
  cases hnodes : d.parameters with
  | nil => exact ⟨_,builtinCode_opens (.letter rfl)⟩
  | cons type types =>
    rw [hnodes] at hspellable
    cases hspellable with
    | moreTypes htype _ => exact ⟨type,Opens.append htype.starts _⟩

theorem Declaration.signature_opens {d : Declaration} (h : d.Proper) :
    ∃ node, Opens node d.signatureCode := by
  unfold Declaration.signatureCode
  cases hreturn : d.returnType with
  | none => exact Declaration.parameters_open h
  | some type =>
    have hopens : Opens type type.typeCode := (h.returnType type hreturn).starts
    exact ⟨type,hopens.append _⟩

theorem Declaration.returnType_reads {d : Declaration} (h : d.Proper)
    (hn : Declaration.returnLevels d.returnType ≤ n) (table : Substitutions)
    (hrest : Closed rest) : ∃ table',
    Reads true (if (d.placement.traits d.arguments).spellsReturnType then some <$>
      (Rules.levels n).type
      else pure none) (Declaration.returnCode d.returnType ++ rest) table d.returnType
        rest table' := by
  have hspells : (d.placement.traits d.arguments).spellsReturnType = d.returnType.isSome :=
    h.returns.symm
  rw [hspells]
  cases hreturn : d.returnType with
  | none => exact ⟨table,.pure⟩
  | some type =>
    rw [hreturn] at hn
    obtain ⟨table',hread⟩ := (h.returnType type hreturn).reads_inFull true hn table
    exact ⟨table',(hread rest hrest).map some⟩

theorem Declaration.reads {d : Declaration} (h : d.Proper) (hn : d.levels ≤ n) :
    ∃ table, Reads true (wholeSymbol (Rules.levels n)) d.code {} d.tree [] table := by
  simp only [Declaration.levels] at hn
  obtain ⟨k,rfl⟩ := Nat.exists_eq_add_of_le' (show 1 ≤ n by omega)
  obtain ⟨node,hopens⟩ := Declaration.signature_opens h
  obtain ⟨table₁,hname⟩ := placement_reads true (n := k) h.placement h.arguments (by omega) {}
    hopens.closed
  obtain ⟨table₂,hreturn⟩ := Declaration.returnType_reads h (n := k) (by omega) table₁
    (Declaration.parameters_open h).choose_spec.closed
  obtain ⟨table₃,hparameters⟩ := Declaration.parameters_read h (n := k) (by omega) table₂
  refine ⟨table₃,wholeSymbol_reads (Placement.not_special h.placement _) ?_⟩
  change Reads true _ (d.placement.code d.arguments ++ d.signatureCode) _ _ _ _
  change Reads true _ d.signatureCode _ _ _ _ at hreturn
  obtain ⟨c,text,htext⟩ := List.exists_cons_of_ne_nil hopens.ne_nil
  rw [htext] at hopens hname hreturn ⊢
  exact functionEncoding_reads ⟨hopens.1,hopens.2.1⟩ hname hreturn hparameters

end

end MangledNames.Grammar
