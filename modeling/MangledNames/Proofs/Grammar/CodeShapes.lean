import MangledNames.Proofs.Grammar.DecodingDeclarations
set_option autoImplicit false

/-!
The shapes of the codes of types that are spelled in full, by their first character, and with them
what can come where a list of types begins.
-/

namespace MangledNames.Grammar

open Cursor

/-- Template arguments behind a name, where there are any. -/
inductive ArgumentsShape : List Char → Prop
  | none : ArgumentsShape []
  | some {arguments : List Node} : Spellable (.types arguments) →
    ArgumentsShape ('I' :: (Node.typesCode arguments ++ ['E']))

/-- The capitals behind which a type, a scope or a size comes. -/
def typeCapitals : List Char := ['P','R','O','C','G','M','A','N','F','V','K']

/-- The code of a type other than `void`: its first character, and what can follow it. -/
inductive CodeShape : Char → List Char → Prop
  | letter {c : Char} : isLower c = true → c ≠ 'v' → CodeShape c []
  | className {c : Char} {name : String} {code more : List Char} : isDigit c = true →
    Identifier name →
    ArgumentsShape more → identifierCode name ++ more = c :: code → CodeShape c code
  | parameter {i : Nat} {code : List Char} : i ≤ 10 ^ numberDigitsMax →
    templateParamCode i = 'T' :: code → CodeShape 'T' code
  | capital {c : Char} {code : List Char} : c ∈ typeCapitals →
    code.head? ≠ some 'I' → CodeShape c code
  | afterD {c : Char} {code : List Char} : c ∉ ['t','T','I'] → CodeShape 'D' (c :: code)
  | restrict {c : Char} {code : List Char} : c ≠ 'I' → (isDigit c = false → code.head? ≠ some 'I') →
    CodeShape 'r' (c :: code)

def Shaped (text : List Char) : Prop := ∃ c code, text = c :: code ∧ CodeShape c code

section
variable {text code rest more : List Char} {c d : Char}

theorem typeCapital_class {p : Char → Bool} (hc : c ∈ typeCapitals)
    (h : typeCapitals.any p = false) :
    ¬p c = true := List.any_eq_false.mp h c hc

theorem builtinCode_shaped {type : BuiltinType} (h : BuiltinCode type code) (hvoid : type ≠ .void) :
    Shaped code := by
  cases h with
  | letter h =>
    refine ⟨_,_,rfl,?_⟩
    unfold BuiltinType.ofLetter? at h
    split at h
    all_goals
      cases h
      try
        first
          | exact absurd rfl hvoid
          | exact .letter rfl (by decide)
  | afterD h =>
    refine ⟨_,_,rfl,.afterD ?_⟩
    unfold BuiltinType.ofLetterAfterD? at h
    split at h
    all_goals
      cases h
      try decide

theorem className_shaped {name : String} (h : Identifier name) (hmore : ArgumentsShape more) :
    Shaped (identifierCode name ++ more) := by
  obtain ⟨c,digits,hc,hcode⟩ := identifierCode_head name
  have htext : identifierCode name ++ more = c :: (digits ++ more) := by
    rw [hcode]
    rfl
  exact ⟨c,_,htext,.className hc h hmore htext⟩

theorem templateParamCode_second (i : Nat) :
    ∃ c code, templateParamCode i = 'T' :: c :: code ∧ c ≠ 'I' := by
  cases i with
  | zero => exact ⟨'_',[],rfl,by decide⟩
  | succ i =>
    obtain ⟨d,digits,hd,hs⟩ := spelled_head 10 i (by decide)
    exact ⟨digitChar d,digits ++ ['_'],by simp [templateParamCode,hs],
      ne_of_class (isDigit_digitChar hd) rfl⟩

theorem parameter_shaped {i : Nat} (hi : i ≤ 10 ^ numberDigitsMax) :
    Shaped (templateParamCode i) := by
  obtain ⟨c,code,hcode,_⟩ := templateParamCode_second i
  exact ⟨'T',c :: code,hcode,.parameter hi hcode⟩

/-- Template arguments only follow the digits of a length. -/
theorem CodeShape.no_arguments (h : CodeShape c code) :
    c ≠ 'I' ∧ (isDigit c = false → code.head? ≠ some 'I') := by
  cases h with
  | letter hc _ => exact ⟨ne_of_class hc rfl,fun _ => by simp⟩
  | className hc _ _ _ =>
    exact ⟨ne_of_class hc rfl,fun hdigit => absurd (hc.symm.trans hdigit) (by decide)⟩
  | @parameter i _ _ hcode =>
    obtain ⟨d,more,hsecond,hd⟩ := templateParamCode_second i
    cases hcode.symm.trans hsecond
    exact ⟨by decide,fun _ => by simpa using hd⟩
  | capital hc hcode =>
    have hI : c ≠ 'I' := ne_of_mem_of_not_mem hc (by decide)
    exact ⟨hI,fun _ => hcode⟩
  | afterD hd =>
    simp only [List.mem_cons,not_or] at hd
    exact ⟨by decide,fun _ => by simpa using hd.2.2.1⟩
  | restrict hd _ => exact ⟨by decide,fun _ => by simpa using hd⟩

theorem Opens.head_ne_arguments {node : Node} (h : Opens node text) : text.head? ≠ some 'I' := by
  cases text with
  | nil => exact h.elim
  | cons c text =>
    rintro ⟨⟩
    exact h.head_ne rfl rfl

/-- Qualifiers in front of what is no qualifier itself. -/
theorem qualified_shaped {cv : CvQualifiers} (hcv : cv.isEmpty = false)
    (h : c ≠ 'I' ∧ (isDigit c = false → code.head? ≠ some 'I')) :
    Shaped (cvCode cv ++ c :: code) := by
  have hhead : (c :: code).head? ≠ some 'I' := by simpa using h.1
  obtain ⟨restrict,volatile,const⟩ := cv
  cases restrict with
  | true =>
    cases volatile with
    | true =>
      cases const with
      | true => exact ⟨_,_,rfl,.restrict (by decide) fun _ => by simp⟩
      | false => exact ⟨_,_,rfl,.restrict (by decide) fun _ => hhead⟩
    | false =>
      cases const with
      | true => exact ⟨_,_,rfl,.restrict (by decide) fun _ => hhead⟩
      | false => exact ⟨_,_,rfl,.restrict h.1 h.2⟩
  | false =>
    cases volatile with
    | true =>
      cases const with
      | true => exact ⟨_,_,rfl,.capital (by decide) (by simp)⟩
      | false => exact ⟨_,_,rfl,.capital (by decide) hhead⟩
    | false =>
      cases const with
      | true => exact ⟨_,_,rfl,.capital (by decide) hhead⟩
      | false => cases hcv

theorem functionCode_shaped {spec : Option (ExceptionSpec Node)}
    (hspec : (Phrase.spec spec).Starts text) (transactionSafe : Bool)
    (hrest : rest.head? ≠ some 'I') :
    Shaped (text ++ ((if transactionSafe then ['D','x'] else []) ++ 'F' :: rest)) := by
  match spec, hspec with
  | some (.noexcept _), hspec =>
    obtain rfl : text = ['D','o'] := hspec
    exact ⟨_,_,rfl,.afterD (by decide)⟩
  | some (.throwing _), hspec =>
    obtain ⟨_,rfl⟩ := hspec
    exact ⟨_,_,rfl,.afterD (by decide)⟩
  | none, hspec =>
    obtain rfl : text = [] := hspec
    cases transactionSafe with
    | true => exact ⟨_,_,rfl,.afterD (by decide)⟩
    | false => exact ⟨_,_,rfl,.capital (by decide) hrest⟩

theorem scope_head {scope : Node} (h : (Phrase.scope scope).Starts text) (more : List Char) :
    (text ++ more).head? ≠ some 'I' := by
  rcases h with ⟨c,rest,rfl,hc⟩ | ⟨c,rest,rfl,hc⟩
  · simpa using ne_of_class hc rfl
  · simp

theorem arrayBound_head (bound : Option Nat) (more : List Char) :
    (arrayBound bound ++ more).head? ≠ some 'I' := by
  cases bound with
  | none => simp [arrayBound]
  | some size =>
    obtain ⟨d,digits,hd,hs⟩ := spelled_head 10 size (by decide)
    simpa [arrayBound,hs] using ne_of_class (isDigit_digitChar hd) rfl

theorem Spellable.shaped {phrase : Phrase} (h : Spellable phrase) {node : Node}
    (hphrase : phrase = .type node) (hvoid : node ≠ .builtinType .void) : Shaped node.typeCode := by
  induction h generalizing node with
  | @builtin type code h =>
    cases hphrase
    have hcode : (Node.builtinType type).typeCode = code := h.code_eq
    rw [hcode]
    exact builtinCode_shaped h fun hv => hvoid (by rw [hv])
  | templateParam hi =>
    cases hphrase
    exact parameter_shaped hi
  | @wrapped code wrap inner hw h _ =>
    cases hphrase
    have hinner : inner.typeCode.head? ≠ some 'I' := Opens.head_ne_arguments h.starts
    rw [hw.typeCode_wrap]
    cases hw with
    | packExpansion => exact ⟨_,_,rfl,.afterD (by decide)⟩
    | pointer => exact ⟨_,_,rfl,.capital (by decide) hinner⟩
    | lvalueReference => exact ⟨_,_,rfl,.capital (by decide) hinner⟩
    | rvalueReference => exact ⟨_,_,rfl,.capital (by decide) hinner⟩
    | complex => exact ⟨_,_,rfl,.capital (by decide) hinner⟩
    | imaginary => exact ⟨_,_,rfl,.capital (by decide) hinner⟩
  | @qualified inner cv hcv _ _ _ ih =>
    cases hphrase
    by_cases hinner : inner = .builtinType .void
    · rw [hinner]
      exact qualified_shaped hcv ⟨by decide,fun _ => by simp⟩
    · obtain ⟨c,code,hcode,hshape⟩ := ih rfl hinner
      change Shaped (cvCode cv ++ inner.typeCode)
      rw [hcode]
      exact qualified_shaped hcv hshape.no_arguments
  | pointerToMember h _ _ _ =>
    cases hphrase
    exact ⟨_,_,rfl,.capital (by decide) (Opens.head_ne_arguments (Opens.append h.starts _))⟩
  | @array element bound hbound h _ =>
    cases hphrase
    rw [typeCode_array]
    exact ⟨_,_,rfl,.capital (by decide) (arrayBound_head bound _)⟩
  | vector =>
    cases hphrase
    exact ⟨_,_,rfl,.afterD (by decide)⟩
  | function f hspec hreturn _ _ _ _ _ =>
    cases hphrase
    obtain ⟨returnType,parameters,cv,ref,spec,externC,transactionSafe⟩ := f
    have hrest : ((if externC then ['Y'] else []) ++ (returnType.typeCode ++
        (Node.parametersCode parameters ++ functionEnd ref))).head? ≠ some 'I' := by
      cases externC with
      | true => simp
      | false => exact Opens.head_ne_arguments (Opens.append hreturn.starts _)
    have hbare := functionCode_shaped hspec.starts transactionSafe hrest
    cases hcv : cv.isEmpty with
    | true =>
      obtain rfl := (CvQualifiers.isEmpty_iff cv).mp hcv
      exact hbare
    | false =>
      obtain ⟨c,code,hcode,hshape⟩ := hbare
      have hqualified := qualified_shaped hcv hshape.no_arguments
      rwa [← hcode] at hqualified
  | @className name h =>
    cases hphrase
    have hname := className_shaped h .none
    rwa [List.append_nil] at hname
  | template h harguments _ =>
    cases hphrase
    exact className_shaped h (.some harguments)
  | nestedName hscope _ _ =>
    cases hphrase
    exact ⟨_,_,rfl,.capital (by decide) (scope_head hscope.starts _)⟩
  | nestedTemplate hscope h _ _ _ =>
    cases hphrase
    exact ⟨_,_,rfl,.capital (by decide) (scope_head (Spellable.scopeMember hscope h).starts _)⟩
  | noSpec => cases hphrase
  | noexcept => cases hphrase
  | throwing => cases hphrase
  | noTypes => cases hphrase
  | moreTypes => cases hphrase
  | scopeName => cases hphrase
  | scopeMember => cases hphrase
  | scopeTemplate => cases hphrase

/-- Types spelled in full one after the other, none of them `void`. -/
def SpelledTypes (text : List Char) : Prop := ∃ types : List Node, Spellable (.types types) ∧
  (∀ type ∈ types, type ≠ .builtinType .void) ∧ Node.typesCode types = text

theorem SpelledTypes.first (h : SpelledTypes (c :: rest)) :
    ∃ code more, rest = code ++ more ∧ CodeShape c code ∧ SpelledTypes more := by
  obtain ⟨types,htypes,hvoid,htext⟩ := h
  cases htypes with
  | noTypes => cases htext
  | @moreTypes type types htype htypes =>
    rw [List.forall_mem_cons] at hvoid
    obtain ⟨d,code,hcode,hshape⟩ := htype.shaped rfl hvoid.1
    rw [Node.typesCode,hcode] at htext
    cases htext
    exact ⟨code,_,rfl,hshape,types,htypes,hvoid.2,rfl⟩

theorem SpelledTypes.head_ne_arguments (h : SpelledTypes text) : text.head? ≠ some 'I' := by
  cases text with
  | nil => simp
  | cons c rest =>
    obtain ⟨_,_,_,hshape,_⟩ := h.first
    simpa using hshape.no_arguments.1

/-- Lower case letters are types by themselves, but for `r`, which qualifies one. -/
theorem SpelledTypes.after_letter (h : SpelledTypes (c :: rest)) (hc : isLower c = true)
    (hr : c ≠ 'r') :
    SpelledTypes rest := by
  obtain ⟨code,more,rfl,hshape,hmore⟩ := h.first
  cases hshape with
  | letter => exact hmore
  | className hdigit => exact absurd ((isDigit_of_isLower hc).symm.trans hdigit) (by decide)
  | parameter => cases hc
  | capital hcapital =>
    exact absurd hc (typeCapital_class hcapital rfl)
  | afterD => cases hc
  | restrict => exact absurd rfl hr

theorem SpelledTypes.after_letters (h : SpelledTypes (c :: d :: rest))
    (hc : isLower c = true ∧ c ≠ 'r') (hd : isLower d = true ∧ d ≠ 'r') : SpelledTypes rest :=
  SpelledTypes.after_letter (h.after_letter hc.1 hc.2) hd.1 hd.2

theorem SpelledTypes.begins (h : SpelledTypes (c :: rest)) :
    c ≠ 'v' ∧ c ≠ 'S' ∧ (c = 'D' → ∃ d more, rest = d :: more ∧ d ≠ 't' ∧ d ≠ 'T') := by
  obtain ⟨code,more,rfl,hshape,_⟩ := h.first
  cases hshape with
  | letter hc hv => exact ⟨hv,ne_of_class hc rfl,fun hD => absurd hD (ne_of_class hc rfl)⟩
  | className hc =>
    exact ⟨ne_of_class hc rfl,ne_of_class hc rfl,fun hD => absurd hD (ne_of_class hc rfl)⟩
  | parameter => exact ⟨by decide,by decide,fun hD => absurd hD (by decide)⟩
  | capital hc =>
    have hv : c ≠ 'v' := ne_of_mem_of_not_mem hc (by decide)
    have hS : c ≠ 'S' := ne_of_mem_of_not_mem hc (by decide)
    have hD : c ≠ 'D' := ne_of_mem_of_not_mem hc (by decide)
    exact ⟨hv,hS,fun hc => absurd hc hD⟩
  | afterD hd =>
    simp only [List.mem_cons,not_or] at hd
    exact ⟨by decide,by decide,fun _ => ⟨_,_,rfl,hd.1,hd.2.1⟩⟩
  | restrict => exact ⟨by decide,by decide,fun hD => absurd hD (by decide)⟩

theorem SpelledTypes.second_ne_arguments (h : SpelledTypes (c :: rest)) (hc : isDigit c = false) :
    rest.head? ≠ some 'I' := by
  obtain ⟨code,more,rfl,hshape,hmore⟩ := h.first
  have hcode := hshape.no_arguments.2 hc
  cases code with
  | nil => exact hmore.head_ne_arguments
  | cons x code => exact hcode

/-- Behind two letters no template arguments come, be the second a type of its own or not. -/
theorem SpelledTypes.third_ne_arguments (h : SpelledTypes (c :: d :: rest)) (hc : isLower c = true)
    (hd : isDigit d = false) : rest.head? ≠ some 'I' := by
  by_cases hr : c = 'r'
  · obtain ⟨code,more,hrest,hshape,hmore⟩ := h.first
    cases hshape with
    | letter =>
      cases hrest
      exact SpelledTypes.second_ne_arguments hmore hd
    | className hdigit => exact absurd ((isDigit_of_isLower hc).symm.trans hdigit) (by decide)
    | parameter => cases hc
    | capital hcapital =>
      rw [hr] at hcapital
      exact absurd hcapital (by decide)
    | afterD => cases hc
    | @restrict _ code _ hcode =>
      cases hrest
      cases code with
      | nil => exact hmore.head_ne_arguments
      | cons x code => exact hcode hd
  · exact (h.after_letter hc hr).second_ne_arguments hd

theorem SpelledTypes.className (h : SpelledTypes (c :: rest)) (hc : isDigit c = true) :
    ∃ name code others, Identifier name ∧ ArgumentsShape code ∧ SpelledTypes others ∧
      c :: rest = identifierCode name ++ (code ++ others) := by
  obtain ⟨code,more,rfl,hshape,hmore⟩ := h.first
  cases hshape with
  | letter hlower => exact absurd ((isDigit_of_isLower hlower).symm.trans hc) (by decide)
  | @className _ name _ arguments _ hname harguments htext =>
    refine ⟨name,arguments,more,hname,harguments,hmore,?_⟩
    rw [← List.append_assoc,htext]
    rfl
  | parameter => cases hc
  | capital hcapital =>
    exact absurd hc (typeCapital_class hcapital rfl)
  | afterD => cases hc
  | restrict => cases hc

theorem SpelledTypes.templateParam (h : SpelledTypes ('T' :: rest)) :
    ∃ i others, i ≤ 10 ^ numberDigitsMax ∧ 'T' :: rest = templateParamCode i ++ others := by
  obtain ⟨code,more,rfl,hshape,_⟩ := h.first
  cases hshape with
  | letter hlower => cases hlower
  | className hdigit => cases hdigit
  | @parameter i _ hi htext =>
    refine ⟨i,more,hi,?_⟩
    rw [htext]
    rfl
  | capital hcapital => exact absurd hcapital (by decide)

end

end MangledNames.Grammar
