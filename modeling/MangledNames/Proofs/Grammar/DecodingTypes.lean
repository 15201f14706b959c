import MangledNames.Proofs.Grammar.DecodingNames
set_option autoImplicit false

/-!
Reading types that are spelled, production by production.
-/

namespace MangledNames.Grammar

open Cursor

section
variable {allowed : Bool} {r : Rules} {rest rest' rest'' : List Char}
  {table table' table'' : Substitutions}

theorem builtin_reads {type : BuiltinType} {code : List Char} (h : BuiltinCode type code) :
    Reads allowed (Grammar.type r) (code ++ rest) table (.builtinType type) rest table := by
  unfold Grammar.type
  refine (scanned (peek_gives 0)).bind ?_
  cases h with
  | letter h =>
    unfold BuiltinType.ofLetter? at h
    split at h
    all_goals
      cases h
      try exact (scanned (next_gives _ _ rest)).bind .pure
  | @afterD c _ h =>
    have hread :
        Reads allowed builtinAfterD ('D' :: c :: rest) table (.builtinType type) rest table := by
      unfold builtinAfterD
      refine here_then fun start hstart => ?_
      rw [hstart]
      simp only [h]
      exact (scanned (takeCode_gives _ 'D' c rest)).bind .pure
    refine (scanned (peek_gives 1)).bind ?_
    unfold BuiltinType.ofLetterAfterD? at h
    split at h
    all_goals
      cases h
      try exact hread

theorem wrapped_reads {code : List Char} {wrap : Node → Node} {inner : Node}
    (hw : Wrapping code wrap) (h : Reads allowed r.type rest table inner rest' table') :
    Reads allowed (Grammar.type r) (code ++ rest) table (wrap inner) rest'
      (table'.append (wrap inner)) := by
  unfold Grammar.type
  refine (scanned (peek_gives 0)).bind ?_
  cases hw with
  | pointer => exact remembered_reads ((scanned (expect_gives "P" _ rest)).bind (h.bind .pure))
  | lvalueReference =>
    exact remembered_reads ((scanned (expect_gives "R" _ rest)).bind (h.bind .pure))
  | rvalueReference =>
    exact remembered_reads ((scanned (expect_gives "O" _ rest)).bind (h.bind .pure))
  | complex => exact remembered_reads ((scanned (expect_gives "C" _ rest)).bind (h.bind .pure))
  | imaginary => exact remembered_reads ((scanned (expect_gives "G" _ rest)).bind (h.bind .pure))
  | packExpansion =>
    refine (scanned (peek_gives 1)).bind (remembered_reads ?_)
    exact (scanned (takeCode_gives _ 'D' 'p' rest)).bind (h.bind .pure)

theorem pointerToMember_reads {classType memberType : Node}
    (h : Reads allowed r.type rest table classType rest' table')
    (h' : Reads allowed r.type rest' table' memberType rest'' table'') :
    Reads allowed (Grammar.type r) ('M' :: rest) table
      (.pointerToMemberType classType memberType) rest''
      (table''.append (.pointerToMemberType classType memberType)) := by
  unfold Grammar.type
  refine (scanned (peek_gives 0)).bind (remembered_reads ?_)
  exact (scanned (expect_gives "M" _ rest)).bind (h.bind (h'.bind .pure))

/-- Qualifiers are read together, up to the type they qualify. -/
theorem qualified_reads {cv : CvQualifiers} {inner : Node} (hcv : cv.isEmpty = false)
    (hrest : ∀ c ∈ rest.head?, c ∉ ['r','V','K'])
    (h : Reads allowed r.type rest table inner rest' table') :
    Reads allowed (Grammar.type r) (cvCode cv ++ rest) table (qualified cv inner) rest'
      (table'.append (qualified cv inner)) := by
  have hqualify :
      Reads allowed (qualify cv inner) rest' table' (qualified cv inner) rest' table' := by
    have hwell : ∀ node, (Node.qualifiedType node cv).wellFormed = true := by
      simp [Node.wellFormed,hcv]
    cases inner
    case functionType f => exact .pure
    all_goals exact build_reads (hwell _)
  have hread : Reads allowed (remembered do
      let cv ← cvQualifiers
      qualify cv (← r.type)) (cvCode cv ++ rest) table (qualified cv inner) rest'
      (table'.append (qualified cv inner)) :=
    remembered_reads ((scanned (cvQualifiers_gives cv hrest)).bind (h.bind hqualify))
  unfold Grammar.type
  refine (scanned (peek_gives 0)).bind ?_
  obtain ⟨restrict,volatile,const⟩ := cv
  cases restrict with
  | true => exact hread
  | false =>
    cases volatile with
    | true => exact hread
    | false =>
      cases const with
      | true => exact hread
      | false => cases hcv

theorem array_reads {bound : Option Nat} {element : Node}
    (hbound : ∀ size ∈ bound, size < 10 ^ numberDigitsMax)
    (h : Reads allowed r.type rest table element rest' table') :
    Reads allowed (Grammar.type r) ('A' :: (arrayBound bound ++ rest)) table
      (.arrayType element (bound.map .size)) rest'
      (table'.append (.arrayType element (bound.map .size))) := by
  unfold Grammar.type
  refine (scanned (peek_gives 0)).bind (remembered_reads ?_)
  unfold arrayType
  refine (scanned (expect_gives "A" _ (arrayBound bound ++ rest))).bind ?_
  cases bound with
  | none =>
    refine (scanned (consume_gives "_" rest)).bind ((scanned (peekIs_gives rfl)).bind ?_)
    exact Gives.bind .pure (h.bind .pure)
  | some size =>
    have hdigit : (spelled 10 size ++ '_' :: rest)[0]?.any isDigit = true := by
      obtain ⟨d,digits,hd,hs⟩ := spelled_head 10 size (by decide)
      rw [hs]
      exact isDigit_digitChar hd
    have hcode : arrayBound (some size) ++ rest = spelled 10 size ++ '_' :: rest := by
      simp [arrayBound]
    rw [hcode]
    refine (scanned (consume_refuses (spelled_no_end 10 size (by decide) (by decide) _))).bind ?_
    refine (scanned (peekIs_gives hdigit)).bind ?_
    refine (scanned (unsigned_gives _ (hbound size rfl) rfl)).bind ?_
    exact (scanned (expect_gives "_" _ rest)).bind (Gives.bind .pure (h.bind .pure))

theorem vector_reads {size : Nat} {element : Node} (hsize : size < 10 ^ numberDigitsMax)
    (h : Reads allowed r.type rest table element rest' table') :
    Reads allowed (Grammar.type r) ('D' :: 'v' :: (spelled 10 size ++ '_' :: rest)) table
      (.vectorType element (.size size)) rest'
      (table'.append (.vectorType element (.size size))) := by
  unfold Grammar.type
  refine (scanned (peek_gives 0)).bind ((scanned (peek_gives 1)).bind (remembered_reads ?_))
  unfold vectorType
  refine (scanned (expect_gives "Dv" _ (spelled 10 size ++ '_' :: rest))).bind ?_
  refine (scanned (consume_refuses (spelled_no_end 10 size (by decide) (by decide) _))).bind ?_
  refine (Gives.map (scanned (unsigned_gives _ hsize rfl)) Dimension.size).bind ?_
  exact (scanned (expect_gives "_" _ rest)).bind (h.bind .pure)

/-- Where arguments are not allowed, what follows a parameter may look like them. -/
theorem templateParamType_reads {i : Nat} (hi : i ≤ 10 ^ numberDigitsMax)
    (hrest : (allowed && "I".toList.isPrefixOf rest) = false) :
    Reads allowed (Grammar.type r) (templateParamCode i ++ rest) table (.templateParam i) rest
      (table.append (.templateParam i)) := by
  have hread :
    Reads allowed templateParam (templateParamCode i ++ rest) table (.templateParam i) rest
      table := templateParam_reads hi rest
  obtain ⟨c,code,hcode,hc⟩ := templateParamCode_head i
  rw [hcode] at hread ⊢
  unfold Grammar.type typeAfterT
  refine (scanned (peek_gives 0)).bind ((scanned (peek_gives 1)).bind ?_)
  simp only [List.cons_append,List.getElem?_cons_succ,List.getElem?_cons_zero,Option.bind_some,hc]
  refine remembered_reads (hread.bind ?_)
  refine get_then fun context hcontext => (scanned (lookingAt_gives rfl)).bind ?_
  rw [hcontext.templateArgsAllowed,hrest]
  exact .pure

theorem reference_reads {node : Node} {i : Nat} (h : table.entries[i]? = some node)
    (hrest : Closed rest) :
    Reads allowed (Grammar.type r) (backReference i ++ rest) table node rest table := by
  have hread : Reads allowed substitution (backReference i ++ rest) table node rest table :=
    substitution_reads h rest
  obtain ⟨c,code,hcode,hc⟩ := backReference_head i
  rw [hcode] at hread ⊢
  unfold Grammar.type typeAfterS
  refine (scanned (peek_gives 0)).bind ((scanned (peek_gives 1)).bind ?_)
  refine Gives.ifNeg (by simpa using hc) (hread.bind ?_)
  refine get_then fun context hcontext => (scanned (lookingAt_gives hrest.arguments)).bind ?_
  exact .ifNeg (by simp) .pure

theorem referredTemplate_reads {name : Node} {arguments : List Node} {i : Nat}
    (h : table.entries[i]? = some name)
    (harguments : Reads true r.templateArgs ('I' :: rest) table arguments rest' table') :
    Reads true (Grammar.type r) (backReference i ++ 'I' :: rest) table
      (.templateName name arguments) rest' (table'.append (.templateName name arguments)) := by
  have hread : Reads true substitution (backReference i ++ 'I' :: rest) table name ('I' :: rest)
      table := substitution_reads h ('I' :: rest)
  obtain ⟨c,code,hcode,hc⟩ := backReference_head i
  rw [hcode] at hread ⊢
  unfold Grammar.type typeAfterS
  refine (scanned (peek_gives 0)).bind ((scanned (peek_gives 1)).bind ?_)
  refine Gives.ifNeg (by simpa using hc) (hread.bind ?_)
  refine get_then fun context hcontext => (scanned (lookingAt_gives rfl)).bind ?_
  rw [hcontext.templateArgsAllowed]
  exact remembered_reads (harguments.map (Node.templateName name))

theorem named_reads {named : Named} {c : Char} (hc : isDigit c = true ∨ c = 'N')
    (h : Reads allowed r.name (c :: rest) table named rest' table') :
    Reads allowed (Grammar.type r) (c :: rest) table named.node rest'
      (table'.append named.node) := by
  have hread : Reads allowed (remembered (Named.node <$> r.name)) (c :: rest) table named.node rest'
      (table'.append named.node) := remembered_reads (h.map Named.node)
  unfold Grammar.type
  refine (scanned (peek_gives 0)).bind ?_
  rcases hc with hc | rfl
  · split
    all_goals
      rename_i hx
      cases hx
      try exact absurd hc (by decide)
    exact Gives.ifPos hc hread
  · exact hread

/-- What a function type can start with: its `F`, or an exception specification or `Dx` before
it. -/
def FunctionStart : List Char → Prop
  | 'F' :: _ => True
  | 'D' :: c :: _ => c ∈ ['o','w','x']
  | _ => False

theorem function_reads {f : FunctionType Node} (hstart : FunctionStart rest)
    (h : Reads allowed (functionType r) rest table (.functionType f) rest' table') :
    Reads allowed (Grammar.type r) rest table (.functionType f) rest'
      (table'.append (.functionType f)) := by
  have hread := remembered_reads h
  unfold Grammar.type
  refine (scanned (peek_gives 0)).bind ?_
  unfold FunctionStart at hstart
  split at hstart
  · exact hread
  · rename_i c rest
    refine (scanned (peek_gives 1)).bind ?_
    simp only [List.mem_cons,List.not_mem_nil,or_false] at hstart
    rcases hstart with rfl | rfl | rfl
    · exact hread
    · exact hread
    · exact hread
  · exact hstart.elim

theorem opens_not_E {node : Node} (hopens : Opens node rest) : rest.head? ≠ some 'E' := by
  intro hhead
  cases rest with
  | nil => exact hopens
  | cons c rest => exact hopens.head_ne rfl (Option.some.inj hhead)

theorem noSpec_reads (h : ∀ literal ∈ ["Do","DO","Dw"], literal.toList.isPrefixOf rest = false) :
    Reads allowed (exceptionSpec r) rest table none rest table := by
  unfold exceptionSpec
  refine (scanned (consume_refuses (h "Do" (by simp)))).bind ?_
  refine (scanned (consume_refuses (h "DO" (by simp)))).bind ?_
  exact (scanned (consume_refuses (h "Dw" (by simp)))).bind .pure

theorem noexcept_reads :
    Reads allowed (exceptionSpec r) ('D' :: 'o' :: rest) table
    (some (.noexcept none)) rest table := by
  unfold exceptionSpec
  exact (scanned (consume_gives "Do" rest)).bind .pure

theorem throwing_reads {types : List Node}
    (h : Items allowed r.type Opens rest table types ('E' :: rest') table') :
    Reads allowed (exceptionSpec r) ('D' :: 'w' :: rest) table
      (some (.throwing types)) rest' table' := by
  unfold exceptionSpec
  refine (scanned (consume_refuses rfl)).bind ((scanned (consume_refuses rfl)).bind ?_)
  refine (scanned (consume_gives "Dw" rest)).bind ?_
  exact (itemsToE_reads h fun _ _ => opens_not_E).bind .pure

/-- A type is neither the end of the parameters nor the sign of a member function before it. -/
theorem functionTypeEnd_refuses {node : Node} (h : Opens node rest) :
    Gives functionTypeEnd (Cursor.At rest) none (Cursor.At rest) := by
  cases rest with
  | nil => exact h.elim
  | cons c rest =>
    have hE : "E".toList.isPrefixOf (c :: rest) = false := by
      simp [List.isPrefixOf,Ne.symm (h.head_ne (x := 'E') rfl)]
    have sign : ∀ x : Char, x = 'R' ∨ x = 'O' → [x,'E'].isPrefixOf (c :: rest) = false := by
      intro x hx
      by_cases hc : x = c
      · subst hc
        have hsign := h.2.2.2 hx
        cases rest with
        | nil => cases hsign
        | cons d rest =>
          have hd : (d != 'E') = true := hsign
          have hne : 'E' ≠ d := by
            rintro rfl
            cases hd
          simp [List.isPrefixOf,hne]
      · simp [List.isPrefixOf,hc]
    have hR : "RE".toList.isPrefixOf (c :: rest) = false := sign 'R' (.inl rfl)
    have hO : "OE".toList.isPrefixOf (c :: rest) = false := sign 'O' (.inr rfl)
    unfold functionTypeEnd
    exact (consume_refuses hE).bind ((consume_refuses hR).bind ((consume_refuses hO).bind .pure))

theorem functionTypeEnd_gives (ref : Option ReferenceKind) (rest : List Char) :
    Gives functionTypeEnd (Cursor.At (functionEnd ref ++ rest)) (some ref) (Cursor.At rest) := by
  unfold functionTypeEnd
  match ref with
  | none => exact (consume_gives "E" rest).bind .pure
  | some .lvalue =>
    exact (consume_refuses rfl).bind ((consume_gives "RE" rest).bind .pure)
  | some .rvalue =>
    refine (consume_refuses rfl).bind ((consume_refuses rfl).bind ?_)
    exact (consume_gives "OE" rest).bind .pure

theorem noParameters_reads (ref : Option ReferenceKind) :
    Reads allowed (functionTypeParameters r) ('v' :: (functionEnd ref ++ rest)) table
    ([],ref) rest table := by
  have hend : Gives functionTypeEnd (Cursor.At ('v' :: (functionEnd ref ++ rest))) none
      (Cursor.At ('v' :: (functionEnd ref ++ rest))) := by
    unfold functionTypeEnd
    refine (consume_refuses rfl).bind ((consume_refuses rfl).bind ?_)
    exact (consume_refuses rfl).bind .pure
  unfold functionTypeParameters
  refine repeatRound_reads (?_ : Rounds allowed _ [] _ table [] (functionEnd ref ++ rest) table) ?_
  · refine .one ?_ (Nat.lt_succ_self _)
    exact (scanned hend).bind ((scanned (consume_gives "v" _)).bind .pure)
  · exact (scanned (functionTypeEnd_gives ref rest)).bind .pure

theorem parameterRounds {types : List Node} {last : List Char}
    (hvoid : ∀ type ∈ types, type ≠ .builtinType .void)
    (h : Items allowed r.type Opens rest table types last table') (before : List Node) :
    Rounds allowed (fun parameters => do
      if let some ref ← functionTypeEnd then return Round.done (parameters.reverse, ref)
      if ← consume "v" then return Round.again parameters
      return Round.again ((← r.type) :: parameters)) before rest table (types.reverse ++ before)
      last table' := by
  induction h generalizing before with
  | nil rest table => exact .none before rest table
  | @cons type types rest _ _ _ _ _ hopen hread hless _ ih =>
    rw [List.forall_mem_cons] at hvoid
    have hv : "v".toList.isPrefixOf rest = false := by
      cases rest with
      | nil => rfl
      | cons c rest =>
        have hc : c ≠ 'v' := fun hc => hvoid.1 (hopen.2.2.1 hc)
        simp [List.isPrefixOf,Ne.symm hc]
    rw [List.reverse_cons,List.append_assoc]
    refine .more (.one ?_ hless) (ih hvoid.2 (type :: before))
    refine (scanned (functionTypeEnd_refuses hopen)).bind ?_
    exact (scanned (consume_refuses hv)).bind (hread.bind .pure)

theorem parameters_reads {types : List Node} (ref : Option ReferenceKind)
    (hvoid : ∀ type ∈ types, type ≠ .builtinType .void)
    (h : Items allowed r.type Opens rest table types (functionEnd ref ++ rest') table') :
    Reads allowed (functionTypeParameters r) rest table (types,ref) rest' table' := by
  unfold functionTypeParameters
  refine repeatRound_reads (parameterRounds hvoid h []) ?_
  refine (scanned (functionTypeEnd_gives ref rest')).bind ?_
  have hdone : (types.reverse ++ []).reverse = types := by simp
  rw [hdone]
  exact .pure

theorem functionType_reads {spec : Option (ExceptionSpec Node)} {returnType : Node}
    {parameters : List Node} (ref : Option ReferenceKind) (externC transactionSafe : Bool)
    {rest₁ rest₂ last : List Char} {table₁ table₂ : Substitutions}
    (hspec : Reads allowed (exceptionSpec r) rest table spec
      ((if transactionSafe then ['D','x'] else []) ++ 'F' ::
        ((if externC then ['Y'] else []) ++ rest₁)) table₁)
    (hreturn : Reads allowed r.type rest₁ table₁ returnType rest₂ table₂)
    (hopens : Opens returnType rest₁)
    (hparameters : Reads allowed (functionTypeParameters r) rest₂ table₂
      (parameters,ref) last table') :
    Reads allowed (functionType r) rest table
      (.functionType ⟨returnType,parameters,{},ref,spec,externC,transactionSafe⟩) last table' := by
  have hsafe :
    Gives (consume "Dx") (Cursor.At ((if transactionSafe then ['D','x'] else []) ++ 'F' ::
      ((if externC then ['Y'] else []) ++ rest₁))) transactionSafe
      (Cursor.At ('F' :: ((if externC then ['Y'] else []) ++ rest₁))) := by
    cases transactionSafe with
    | true => exact consume_gives "Dx" _
    | false => exact consume_refuses rfl
  have hextern : Gives (consume "Y") (Cursor.At ((if externC then ['Y'] else []) ++ rest₁)) externC
      (Cursor.At rest₁) := by
    refine consume_flag rfl externC fun hhead => ?_
    cases rest₁ with
    | nil => exact hopens
    | cons c rest₁ =>
      cases hhead
      exact absurd hopens.1 (by decide)
  unfold functionType
  refine hspec.bind ((scanned hsafe).bind ((scanned (expect_gives "F" _ _)).bind ?_))
  exact (scanned hextern).bind (hreturn.bind (hparameters.bind .pure))

end

end MangledNames.Grammar
