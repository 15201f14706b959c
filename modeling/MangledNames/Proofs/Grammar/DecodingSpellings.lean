import MangledNames.Proofs.Grammar.DecodingTypes
import MangledNames.Grammar.Production
set_option autoImplicit false

/-!
Whatever way a phrase is spelled, reading the text gives the phrase and the table that spelling it
left.
-/

namespace MangledNames.Grammar

open Cursor

/-- How the text of a phrase can start. -/
def Phrase.Starts (text : List Char) : Phrase → Prop
  | .type node => Opens node text
  | .types _ | .parameters _ => text = [] ∨ ∃ node, Opens node text
  | .scope _ => (∃ c rest, text = c :: rest ∧ isDigit c = true) ∨
      ∃ c rest, text = 'S' :: c :: rest ∧ c ≠ 't'
  | .spec none => text = []
  | .spec (some (.noexcept _)) => text = ['D','o']
  | .spec (some (.throwing _)) => ∃ rest, text = 'D' :: 'w' :: rest

theorem isDigit_opens {node : Node} {c : Char} (rest : List Char) (h : isDigit c = true) :
    Opens node (c :: rest) := by
  refine ⟨by simp [isTypeStart,h],ne_of_class h rfl,?_,?_⟩
  · exact fun hc => absurd hc (ne_of_class h rfl)
  · rintro (hc | hc)
    · exact absurd hc (ne_of_class h rfl)
    · exact absurd hc (ne_of_class h rfl)

theorem letter_opens {node : Node} {c : Char} (rest : List Char)
    (h : isTypeStart c = true ∧ c ≠ 'U' ∧ c ≠ 'v' ∧ c ≠ 'R' ∧ c ≠ 'O') :
    Opens node (c :: rest) := by
  obtain ⟨hstart,hU,hv,hR,hO⟩ := h
  refine ⟨hstart,hU,fun hc => absurd hc hv,?_⟩
  rintro (hc | hc)
  · exact absurd hc hR
  · exact absurd hc hO

theorem builtinCode_opens {type : BuiltinType} {code : List Char} (h : BuiltinCode type code) :
    Opens (.builtinType type) code := by
  cases h with
  | letter h =>
    unfold BuiltinType.ofLetter? at h
    split at h
    all_goals
      cases h
      try exact ⟨by decide,by decide,by simp,by simp⟩
  | afterD h => exact letter_opens _ (by decide)

theorem Spells.starts {n : Nat} {table table' : Substitutions} {phrase : Phrase} {text : List Char}
    (h : Spells n table phrase text table') : phrase.Starts text := by
  have identifier_starts : ∀ (node : Node) (name : String) (rest : List Char),
      Opens node (identifierCode name ++ rest) := by
    intro node name rest
    obtain ⟨c,code,hc,hcode⟩ := identifierCode_head name
    rw [hcode]
    exact isDigit_opens _ hc
  have reference_starts : ∀ (node : Node) (i : Nat) (rest : List Char),
      Opens node (backReference i ++ rest) := by
    intro node i rest
    obtain ⟨c,code,hcode,_⟩ := backReference_head i
    rw [hcode]
    exact letter_opens _ (by decide)
  have scope_append : ∀ {scope scope' text} (rest : List Char), (Phrase.scope scope).Starts text →
      (Phrase.scope scope').Starts (text ++ rest) := by
    rintro scope scope' text rest (⟨c,code,rfl,hc⟩ | ⟨c,code,rfl,hc⟩)
    · exact .inl ⟨c,code ++ rest,rfl,hc⟩
    · exact .inr ⟨c,code ++ rest,rfl,hc⟩
  induction h with
  | builtin h => exact builtinCode_opens h
  | @reference _ _ node i h =>
    have hstart := reference_starts node i []
    rwa [List.append_nil] at hstart
  | @templateParam _ _ i h =>
    obtain ⟨c,code,hcode,_⟩ := templateParamCode_head i
    change Opens _ (templateParamCode i)
    rw [hcode]
    exact letter_opens _ (by decide)
  | @wrapped _ _ _ _ text _ _ hw _ ih =>
    have hinner : text.head?.any (· != 'E') = true := by
      cases text with
      | nil => exact ih.elim
      | cons c text => simpa using Opens.head_ne ih (x := 'E') rfl
    cases hw with
    | lvalueReference => exact ⟨by decide,by decide,by simp,fun _ => hinner⟩
    | rvalueReference => exact ⟨by decide,by decide,by simp,fun _ => hinner⟩
    | pointer => exact letter_opens _ (by decide)
    | complex => exact letter_opens _ (by decide)
    | imaginary => exact letter_opens _ (by decide)
    | packExpansion => exact letter_opens _ (by decide)
  | @qualified _ _ _ text _ cv hcv _ _ _ =>
    change Opens _ (cvCode cv ++ text)
    obtain ⟨restrict,volatile,const⟩ := cv
    cases restrict with
    | true => exact letter_opens _ (by decide)
    | false =>
      cases volatile with
      | true => exact letter_opens _ (by decide)
      | false =>
        cases const with
        | true => exact letter_opens _ (by decide)
        | false => cases hcv
  | pointerToMember => exact letter_opens _ (by decide)
  | array => exact letter_opens _ (by decide)
  | vector => exact letter_opens _ (by decide)
  | @function _ _ _ _ _ specText _ _ spec _ _ ref externC transactionSafe _ _ _ ihspec _ _ =>
    match spec, ihspec with
    | some (.noexcept _), hspec =>
      obtain rfl : specText = ['D','o'] := hspec
      exact letter_opens _ (by decide)
    | some (.throwing _), hspec =>
      obtain ⟨rest,rfl⟩ := hspec
      exact letter_opens _ (by decide)
    | none, hspec =>
      obtain rfl : specText = [] := hspec
      cases transactionSafe with
      | true => exact letter_opens _ (by decide)
      | false => exact letter_opens _ (by decide)
  | noSpec => exact rfl
  | noexcept => exact rfl
  | throwing => exact ⟨_,rfl⟩
  | noParameters => exact .inr ⟨_,builtinCode_opens (.letter rfl)⟩
  | parameters _ _ _ ih => exact ih
  | noTypes => exact .inl rfl
  | moreTypes _ _ ih _ => exact .inr ⟨_,Opens.append ih _⟩
  | @className _ _ name _ =>
    have hstart := identifier_starts (.sourceName name) name []
    rwa [List.append_nil] at hstart
  | template => exact identifier_starts _ _ _
  | referredTemplate => exact reference_starts _ _ _
  | nestedName => exact letter_opens _ (by decide)
  | nestedTemplate => exact letter_opens _ (by decide)
  | @scopeName _ _ name _ =>
    obtain ⟨c,code,hc,hcode⟩ := identifierCode_head name
    exact .inl ⟨c,code,hcode,hc⟩
  | @scopeReference _ _ _ i _ =>
    obtain ⟨c,code,hcode,hc⟩ := backReference_head i
    exact .inr ⟨c,code,hcode,hc⟩
  | scopeMember _ _ ih => exact scope_append _ ih
  | scopeTemplate _ _ ih _ => exact scope_append _ ih

/-- What reading the text of a phrase comes to, whatever text follows that does not belong to
it. -/
def Phrase.Reading (allowed : Bool) (n : Nat) (table : Substitutions) (text : List Char)
    (table' : Substitutions) :
    Phrase → Prop
  | .type node => ∀ rest, Closed rest →
      Reads allowed (Rules.levels n).type (text ++ rest) table node rest table'
  | .types nodes => ∀ rest, Closed rest →
      Items allowed (Rules.levels n).type Opens (text ++ rest) table nodes rest table'
  | .scope node => ∀ c rest, isDigit c = true ∨ c = 'I' → ∃ traits,
      Rounds allowed (nestedRound (Rules.levels n)) (none,{}) (text ++ c :: rest) table
        (some node,traits) (c :: rest) table'
  | .spec s => ∀ rest, (∀ literal ∈ ["Do","DO","Dw"], literal.toList.isPrefixOf rest = false) →
      Reads allowed (exceptionSpec (Rules.levels n)) (text ++ rest) table s rest table'
  | .parameters nodes => ∀ ref rest,
      Reads allowed (functionTypeParameters (Rules.levels n))
        (text ++ (functionEnd ref ++ rest)) table (nodes,ref) rest table'

theorem closed_append {text rest : List Char} (h : text = [] ∨ ∃ node, Opens node text)
    (hrest : Closed rest) : Closed (text ++ rest) := by
  rcases h with rfl | ⟨node,hopens⟩
  · exact hrest
  · exact (hopens.append rest).closed

theorem functionEnd_closed (ref : Option ReferenceKind) (rest : List Char) :
    Closed (functionEnd ref ++ rest) := by
  match ref with
  | none => exact closed_of_head (by decide)
  | some .lvalue => exact closed_of_head (by decide)
  | some .rvalue => exact closed_of_head (by decide)

/-- What follows an exception specification is none. -/
theorem function_starts {spec : Option (ExceptionSpec Node)} {text : List Char}
    (h : (Phrase.spec spec).Starts text) (transactionSafe : Bool) (rest : List Char) :
    FunctionStart (text ++ ((if transactionSafe then ['D','x'] else []) ++ 'F' :: rest)) ∧
      ∀ literal ∈ ["Do","DO","Dw"], literal.toList.isPrefixOf
        ((if transactionSafe then ['D','x'] else []) ++ 'F' :: rest) = false := by
  constructor
  · match spec, h with
    | some (.noexcept _), h =>
      obtain rfl : text = ['D','o'] := h
      change 'o' ∈ ['o','w','x']
      decide
    | some (.throwing _), h =>
      obtain ⟨_,rfl⟩ := h
      change 'w' ∈ ['o','w','x']
      decide
    | none, h =>
      obtain rfl : text = [] := h
      cases transactionSafe with
      | true =>
        change 'x' ∈ ['o','w','x']
        decide
      | false => exact trivial
  · simp only [List.forall_mem_cons]
    cases transactionSafe with
    | true => exact ⟨rfl,rfl,rfl,by simp⟩
    | false => exact ⟨rfl,rfl,rfl,by simp⟩

section
variable {allowed : Bool} {n : Nat} {table table' : Substitutions} {text rest : List Char}

/-- Arguments are read two levels further in. -/
theorem arguments_reads {arguments : List Node}
    (h : (Phrase.types arguments).Reading true n table text table') (rest : List Char) :
    Reads allowed (Rules.levels (n + 2)).templateArgs ('I' :: (text ++ 'E' :: rest)) table
      arguments rest table' := by
  have hitems := h ('E' :: rest) (closed_of_head (by decide))
  have harguments : Items true (Rules.levels (n + 1)).templateArg Opens (text ++ 'E' :: rest) table
      arguments ('E' :: rest) table' :=
    hitems.map fun hopens hread => nested_reads (templateArg_reads hopens hread)
  exact nested_reads (templateArgs_reads harguments fun _ _ => Opens.head_ne_end)

/-- The next component of a nested name neither tags the one before nor ends the name. -/
theorem scopeEnd_refuses {c : Char} (hc : isDigit c = true ∨ c = 'I') (rest : List Char) :
    "B".toList.isPrefixOf (c :: rest) = false ∧ "E".toList.isPrefixOf (c :: rest) = false := by
  rcases hc with hc | rfl
  · have hword := isWordStart_digit hc
    exact ⟨isPrefixOf_word hword rfl,isPrefixOf_word hword rfl⟩
  · exact ⟨rfl,rfl⟩

theorem word_starts {c : Char} (hc : isWordStart c = true) (rest : List Char) :
    ∀ literal ∈ ["E","L","M","S"], literal.toList.isPrefixOf (c :: rest) = false := by
  have hothers : ∀ literal ∈ ["E","L","M","S"],
      literal.toList.head?.any (fun x => !isWordStart x) = true := by decide
  exact fun literal hliteral => isPrefixOf_word hc (hothers literal hliteral)

theorem unqualified_reads {name : String} (h : Identifier name)
    (hrest : "B".toList.isPrefixOf rest = false) :
    Reads allowed (Rules.levels (n + 1)).unqualifiedName (identifierCode name ++ rest) table
      ⟨.sourceName name,{}⟩ rest table := nested_reads (unqualifiedName_reads h hrest)

theorem wordRound_reads {r : Rules} (scope : Option Node) (traits : NameTraits) {named : Named}
    {c : Char} {rest' : List Char} (hc : isWordStart c = true)
    (h : Reads allowed r.unqualifiedName (c :: rest) table named rest' table')
    (hless : rest'.length < (c :: rest).length) {complete : Bool}
    (hcomplete : "E".toList.isPrefixOf rest' = complete) :
    Rounds allowed (nestedRound r) (scope,traits) (c :: rest) table
      (some (join scope named.node),{ traits with
        endsWithTemplateArgs := false
        ctorDtorConversion := traits.ctorDtorConversion || named.traits.ctorDtorConversion })
      rest' (if complete then table' else table'.append (join scope named.node)) :=
  .one (component_reads (word_starts hc rest) (componentName_reads hc h) hcomplete) hless

theorem nameRound_reads {scope : Option Node} {traits : NameTraits} {name : String}
    (h : Identifier name) (htags : "B".toList.isPrefixOf rest = false) {complete : Bool}
    (hcomplete : "E".toList.isPrefixOf rest = complete) :
    Rounds allowed (nestedRound (Rules.levels (n + 1))) (scope,traits) (identifierCode name ++ rest)
      table (some (join scope (.sourceName name)),{ traits with endsWithTemplateArgs := false })
      rest (if complete then table else table.append (join scope (.sourceName name))) := by
  have hname : Reads allowed (Rules.levels (n + 1)).unqualifiedName (identifierCode name ++ rest)
      table ⟨.sourceName name,{}⟩ rest table := unqualified_reads h htags
  obtain ⟨d,code,hd,hcode⟩ := identifierCode_head name
  rw [hcode] at hname ⊢
  have hround := wordRound_reads scope traits (isWordStart_digit hd) hname (by simp) hcomplete
  rwa [Bool.or_false] at hround

theorem argumentsRound_reads {scope : Node} {traits : NameTraits} {arguments : List Node}
    (h : (Phrase.types arguments).Reading true n table text table') {complete : Bool}
    (hcomplete : "E".toList.isPrefixOf rest = complete) :
    Rounds allowed (nestedRound (Rules.levels (n + 2))) (some scope,traits)
      ('I' :: (text ++ 'E' :: rest)) table
      (some (.templateName scope arguments),{ traits with endsWithTemplateArgs := true }) rest
      (if complete then table' else table'.append (.templateName scope arguments)) := by
  have hstarts : ∀ literal ∈ ["E","L","M","S"],
      literal.toList.isPrefixOf ('I' :: (text ++ 'E' :: rest)) = false := by
    simp only [List.forall_mem_cons]
    exact ⟨rfl,rfl,rfl,rfl,by simp⟩
  refine .one (component_reads hstarts (componentArgs_reads (arguments_reads h rest)) hcomplete) ?_
  simp
  omega

theorem classType_reads {c : Char} {named : Named} {rest' : List Char} (hc : isDigit c = true)
    (h : Reads allowed (name (Rules.levels n)) (c :: rest) table named rest' table') :
    Reads allowed (Rules.levels (n + 2)).type (c :: rest) table named.node rest'
      (table'.append named.node) := by
  have hname : Reads allowed (Rules.levels (n + 1)).name (c :: rest) table named rest' table' :=
    nested_reads h
  exact nested_reads (named_reads (.inl hc) hname)

theorem nestedType_reads {scope node : Node} {traits : NameTraits}
    (hstart : (Phrase.scope scope).Starts text) {rest' : List Char}
    (h : Rounds allowed (nestedRound (Rules.levels n)) (none,{}) (text ++ rest) table
      (some node,traits) ('E' :: rest') table') :
    Reads allowed (Rules.levels (n + 3)).type ('N' :: (text ++ rest)) table node rest'
      (table'.append node) := by
  have hname : Reads allowed (Rules.levels (n + 2)).name ('N' :: (text ++ rest)) table
      ⟨node,traits⟩ rest' table' := by
    refine nested_reads (name_of_nestedName (nested_reads ?_))
    rcases hstart with ⟨c,code,rfl,hc⟩ | ⟨c,code,rfl,hc⟩
    · exact nestedName_reads {} none (.inl hc) (isPrefixOf_word (isWordStart_digit hc) rfl) h
    · refine nestedName_reads {} none (.inr rfl) ?_ h
      simp [List.isPrefixOf,Ne.symm hc]
  exact nested_reads (named_reads (.inr rfl) hname)

/-! Phrases are read piece by piece. -/

section
variable {wrap : Node → Node} {code : List Char} {inner : Node}

theorem wrapped_reading (hw : Wrapping code wrap)
    (h : (Phrase.type inner).Reading allowed n table text table') :
    (Phrase.type (wrap inner)).Reading allowed (n + 1) table (code ++ text)
      (table'.append (wrap inner)) := by
  intro rest hrest
  rw [List.append_assoc]
  exact nested_reads (wrapped_reads hw (h rest hrest))

theorem qualified_reading {cv : CvQualifiers} (hcv : cv.isEmpty = false) (hne : text ≠ [])
    (htext : ∀ c ∈ text.head?, c ∉ ['r','V','K'])
    (h : (Phrase.type inner).Reading allowed n table text table') :
    (Phrase.type (qualified cv inner)).Reading allowed (n + 1) table (cvCode cv ++ text)
      (table'.append (qualified cv inner)) := by
  intro rest hrest
  have hhead : ∀ c ∈ (text ++ rest).head?, c ∉ ['r','V','K'] := by
    rwa [List.head?_append_of_ne_nil _ hne]
  rw [List.append_assoc]
  exact nested_reads (qualified_reads hcv hhead (h rest hrest))

end

theorem pointerToMember_reading {classType memberType : Node} {text' : List Char}
    {table'' : Substitutions} (hopens : Opens memberType text')
    (h : (Phrase.type classType).Reading allowed n table text table')
    (h' : (Phrase.type memberType).Reading allowed n table' text' table'') :
    (Phrase.type (.pointerToMemberType classType memberType)).Reading allowed (n + 1) table
      ('M' :: (text ++ text')) (table''.append (.pointerToMemberType classType memberType)) := by
  intro rest hrest
  have hmember := h _ (hopens.append rest).closed
  rw [List.cons_append,List.append_assoc]
  exact nested_reads (pointerToMember_reads hmember (h' rest hrest))

theorem array_reading {element : Node} {bound : Option Nat}
    (hbound : ∀ size ∈ bound, size < 10 ^ numberDigitsMax)
    (h : (Phrase.type element).Reading allowed n table text table') :
    (Phrase.type (.arrayType element (bound.map .size))).Reading allowed (n + 1) table
      ('A' :: (arrayBound bound ++ text))
      (table'.append (.arrayType element (bound.map .size))) := by
  intro rest hrest
  rw [List.cons_append,List.append_assoc]
  exact nested_reads (array_reads hbound (h rest hrest))

theorem vector_reading {element : Node} {size : Nat} (hsize : size < 10 ^ numberDigitsMax)
    (h : (Phrase.type element).Reading allowed n table text table') :
    (Phrase.type (.vectorType element (.size size))).Reading allowed (n + 1) table
      ('D' :: 'v' :: (spelled 10 size ++ '_' :: text))
      (table'.append (.vectorType element (.size size))) := by
  intro rest hrest
  have htext : 'D' :: 'v' :: (spelled 10 size ++ '_' :: text) ++ rest =
      'D' :: 'v' :: (spelled 10 size ++ '_' :: (text ++ rest)) := by simp
  rw [htext]
  exact nested_reads (vector_reads hsize (h rest hrest))

theorem function_reading {spec : Option (ExceptionSpec Node)} {returnType : Node}
    {parameters : List Node} (ref : Option ReferenceKind) (externC transactionSafe : Bool)
    {specText returnText parameterText : List Char} {table₁ table₂ table₃ : Substitutions}
    (hspecStarts : (Phrase.spec spec).Starts specText) (hopens : Opens returnType returnText)
    (hparameterStarts : (Phrase.parameters parameters).Starts parameterText)
    (hspec : (Phrase.spec spec).Reading allowed n table specText table₁)
    (hreturn : (Phrase.type returnType).Reading allowed n table₁ returnText table₂)
    (hparameters : (Phrase.parameters parameters).Reading allowed n table₂ parameterText table₃) :
    (Phrase.type
      (.functionType ⟨returnType,parameters,{},ref,spec,externC,transactionSafe⟩)).Reading
      allowed (n + 1) table
      (specText ++ ((if transactionSafe then ['D','x'] else []) ++ 'F' ::
        ((if externC then ['Y'] else []) ++ (returnText ++ (parameterText ++ functionEnd ref)))))
      (table₃.append
        (.functionType ⟨returnType,parameters,{},ref,spec,externC,transactionSafe⟩)) := by
  intro rest hrest
  have htext : specText ++ ((if transactionSafe then ['D','x'] else []) ++ 'F' ::
        ((if externC then ['Y'] else []) ++
          (returnText ++ (parameterText ++ functionEnd ref)))) ++ rest =
      specText ++ ((if transactionSafe then ['D','x'] else []) ++ 'F' ::
      ((if externC then ['Y'] else []) ++
        (returnText ++ (parameterText ++ (functionEnd ref ++ rest))))) := by simp
  have hread := hreturn _ (closed_append hparameterStarts (functionEnd_closed ref rest))
  obtain ⟨hstart,hliterals⟩ := function_starts hspecStarts transactionSafe
    ((if externC then ['Y'] else []) ++
      (returnText ++ (parameterText ++ (functionEnd ref ++ rest))))
  rw [htext]
  exact nested_reads (function_reads hstart (functionType_reads ref externC transactionSafe
    (hspec _ hliterals) hread (hopens.append _) (hparameters ref rest)))

theorem throwing_reading {types : List Node}
    (h : (Phrase.types types).Reading allowed n table text table') :
    (Phrase.spec (some (.throwing types))).Reading allowed n table ('D' :: 'w' :: (text ++ ['E']))
      table' := by
  intro rest _
  have hitems := h ('E' :: rest) (closed_of_head (by decide))
  have htext :
    'D' :: 'w' :: (text ++ ['E']) ++ rest = 'D' :: 'w' :: (text ++ 'E' :: rest) := by simp
  rw [htext]
  exact throwing_reads hitems

theorem parameters_reading {types : List Node} (hvoid : ∀ type ∈ types, type ≠ .builtinType .void)
    (h : (Phrase.types types).Reading allowed n table text table') :
    (Phrase.parameters types).Reading allowed n table text table' :=
  fun ref rest => parameters_reads ref hvoid (h _ (functionEnd_closed ref rest))

theorem moreTypes_reading {type : Node} {types : List Node} {text' : List Char}
    {table'' : Substitutions} (hopens : Opens type text)
    (hstarts : (Phrase.types types).Starts text')
    (h : (Phrase.type type).Reading allowed n table text table')
    (h' : (Phrase.types types).Reading allowed n table' text' table'') :
    (Phrase.types (type :: types)).Reading allowed n table (text ++ text') table'' := by
  intro rest hrest
  have hread := h _ (closed_append hstarts hrest)
  rw [List.append_assoc]
  refine .cons (hopens.append _) hread ?_ (h' rest hrest)
  cases text with
  | nil => exact hopens.elim
  | cons c text => simp

section
variable {name : String}

theorem className_reading (h : Identifier name) :
    (Phrase.type (.sourceName name)).Reading allowed (n + 3) table (identifierCode name)
      (table.append (.sourceName name)) := by
  intro rest hrest
  have hread : Reads allowed (Rules.levels (n + 1)).unqualifiedName (identifierCode name ++ rest)
      table ⟨.sourceName name,{}⟩ rest table := unqualified_reads h hrest.tags
  obtain ⟨c,code,hc,hcode⟩ := identifierCode_head name
  rw [hcode] at hread ⊢
  exact classType_reads hc (name_reads (isWordStart_digit hc) hrest.arguments hread)

theorem template_reading {arguments : List Node} (hname : Identifier name)
    (h : (Phrase.types arguments).Reading true n (table.append (.sourceName name)) text table') :
    (Phrase.type (.templateName (.sourceName name) arguments)).Reading allowed (n + 4) table
      (identifierCode name ++ 'I' :: (text ++ ['E']))
      (table'.append (.templateName (.sourceName name) arguments)) := by
  intro rest hrest
  have htext : identifierCode name ++ 'I' :: (text ++ ['E']) ++ rest =
      identifierCode name ++ 'I' :: (text ++ 'E' :: rest) := by simp
  have hread : Reads allowed (Rules.levels (n + 2)).unqualifiedName
      (identifierCode name ++ 'I' :: (text ++ 'E' :: rest)) table ⟨.sourceName name,{}⟩
      ('I' :: (text ++ 'E' :: rest)) table := unqualified_reads hname rfl
  rw [htext]
  obtain ⟨c,code,hc,hcode⟩ := identifierCode_head name
  rw [hcode] at hread ⊢
  exact classType_reads hc
    (templateName_reads (isWordStart_digit hc) hread (arguments_reads h rest))

/-- An identifier goes on with the scope that was read before it. -/
theorem scope_then_identifier {scope : Node}
    (h : (Phrase.scope scope).Reading allowed n table text table') (name : String)
    (rest : List Char) : ∃ traits,
    Rounds allowed (nestedRound (Rules.levels n)) (none,{}) (text ++ (identifierCode name ++ rest))
      table (some scope,traits) (identifierCode name ++ rest) table' := by
  obtain ⟨c,code,hc,hcode⟩ := identifierCode_head name
  rw [hcode]
  exact h c (code ++ rest) (.inl hc)

theorem nestedName_reading {scope : Node} (hname : Identifier name)
    (hstarts : (Phrase.scope scope).Starts text)
    (h : (Phrase.scope scope).Reading allowed (n + 1) table text table') :
    (Phrase.type (.nestedName scope (.sourceName name))).Reading allowed (n + 4) table
      ('N' :: (text ++ (identifierCode name ++ ['E'])))
      (table'.append (.nestedName scope (.sourceName name))) := by
  intro rest hrest
  have htext : 'N' :: (text ++ (identifierCode name ++ ['E'])) ++ rest =
      'N' :: (text ++ (identifierCode name ++ 'E' :: rest)) := by simp
  obtain ⟨traits,hrounds⟩ := scope_then_identifier h name ('E' :: rest)
  rw [htext]
  exact nestedType_reads hstarts (hrounds.more (nameRound_reads hname rfl rfl))

theorem nestedTemplate_reading {scope : Node} {arguments : List Node} {text' : List Char}
    {table'' : Substitutions} (hstarts : (Phrase.scope scope).Starts text)
    (h : (Phrase.scope scope).Reading allowed (n + 2) table text table')
    (h' : (Phrase.types arguments).Reading true n table' text' table'') :
    (Phrase.type (.templateName scope arguments)).Reading allowed (n + 5) table
      ('N' :: (text ++ 'I' :: (text' ++ ['E','E'])))
      (table''.append (.templateName scope arguments)) := by
  intro rest hrest
  have htext : 'N' :: (text ++ 'I' :: (text' ++ ['E','E'])) ++ rest =
      'N' :: (text ++ 'I' :: (text' ++ 'E' :: 'E' :: rest)) := by simp
  obtain ⟨traits,hrounds⟩ := h 'I' (text' ++ 'E' :: 'E' :: rest) (.inr rfl)
  rw [htext]
  exact nestedType_reads hstarts (hrounds.more (argumentsRound_reads h' rfl))

theorem scopeName_reading (h : Identifier name) :
    (Phrase.scope (.sourceName name)).Reading allowed (n + 1) table (identifierCode name)
      (table.append (.sourceName name)) :=
  fun _ rest hc => ⟨_,nameRound_reads h (scopeEnd_refuses hc rest).1 (scopeEnd_refuses hc rest).2⟩

theorem scopeMember_reading {scope : Node} (hname : Identifier name)
    (h : (Phrase.scope scope).Reading allowed (n + 1) table text table') :
    (Phrase.scope (.nestedName scope (.sourceName name))).Reading allowed (n + 1) table
      (text ++ identifierCode name) (table'.append (.nestedName scope (.sourceName name))) := by
  intro c rest hc
  obtain ⟨traits,hrounds⟩ := scope_then_identifier h name (c :: rest)
  rw [List.append_assoc]
  exact ⟨_,hrounds.more
    (nameRound_reads hname (scopeEnd_refuses hc rest).1 (scopeEnd_refuses hc rest).2)⟩

theorem scopeTemplate_reading {scope : Node} {arguments : List Node} {text' : List Char}
    {table'' : Substitutions} (h : (Phrase.scope scope).Reading allowed (n + 2) table text table')
    (h' : (Phrase.types arguments).Reading true n table' text' table'') :
    (Phrase.scope (.templateName scope arguments)).Reading allowed (n + 2) table
      (text ++ 'I' :: (text' ++ ['E'])) (table''.append (.templateName scope arguments)) := by
  intro c rest hc
  have htext : text ++ 'I' :: (text' ++ ['E']) ++ c :: rest =
      text ++ 'I' :: (text' ++ 'E' :: c :: rest) := by simp
  obtain ⟨traits,hrounds⟩ := h 'I' (text' ++ 'E' :: c :: rest) (.inr rfl)
  rw [htext]
  exact ⟨_,hrounds.more (argumentsRound_reads h' (scopeEnd_refuses hc rest).2)⟩

end

end

theorem Spells.reads {n : Nat} {table table' : Substitutions} {phrase : Phrase} {text : List Char}
    (h : Spells n table phrase text table') : phrase.Reading true n table text table' := by
  -- Where a part stands behind another one, its first character tells that the other
  -- one ends there.
  induction h with
  | builtin h => exact fun rest _ => nested_reads (builtin_reads h)
  | reference h => exact fun rest hrest => nested_reads (reference_reads h hrest)
  | templateParam h =>
    exact fun rest hrest => nested_reads (templateParamType_reads h hrest.arguments)
  | wrapped hw _ ih => exact wrapped_reading hw ih
  | qualified hcv h htext ih => exact qualified_reading hcv (Opens.ne_nil h.starts) htext ih
  | pointerToMember _ h' ih ih' => exact pointerToMember_reading h'.starts ih ih'
  | array hbound _ ih => exact array_reading hbound ih
  | vector hsize _ ih => exact vector_reading hsize ih
  | function ref externC transactionSafe hspec hreturn hparameters ihspec ihreturn ihparameters =>
    exact function_reading ref externC transactionSafe hspec.starts hreturn.starts
      hparameters.starts ihspec ihreturn ihparameters
  | noSpec => exact fun rest hrest => noSpec_reads hrest
  | noexcept => exact fun rest _ => noexcept_reads
  | throwing _ ih => exact throwing_reading ih
  | noParameters => exact fun ref rest => noParameters_reads ref
  | parameters _ hvoid _ ih => exact parameters_reading hvoid ih
  | noTypes => exact fun rest _ => .nil rest _
  | moreTypes h h' ih ih' => exact moreTypes_reading h.starts h'.starts ih ih'
  | className h => exact className_reading h
  | template h _ ih => exact template_reading h ih
  | @referredTemplate _ _ _ text _ i _ h _ ih =>
    intro rest hrest
    have htext : backReference i ++ 'I' :: (text ++ ['E']) ++ rest =
        backReference i ++ 'I' :: (text ++ 'E' :: rest) := by simp
    rw [htext]
    exact nested_reads (referredTemplate_reads h (arguments_reads ih rest))
  | nestedName h hscope ih => exact nestedName_reading h hscope.starts ih
  | nestedTemplate hscope _ ih ih' => exact nestedTemplate_reading hscope.starts ih ih'
  | scopeName h => exact scopeName_reading h
  | @scopeReference _ _ _ i h =>
    intro c rest _
    refine ⟨_,.one (scopeReference_reads h) ?_⟩
    obtain ⟨d,code,hcode,_⟩ := backReference_head i
    simp [hcode]
    omega
  | scopeMember h _ ih => exact scopeMember_reading h ih
  | scopeTemplate _ _ ih ih' => exact scopeTemplate_reading ih ih'

end MangledNames.Grammar
