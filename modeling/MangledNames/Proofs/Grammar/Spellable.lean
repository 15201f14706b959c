import MangledNames.Proofs.Grammar.DecodingSpellings
import MangledNames.Proofs.Grammar.InFull
set_option autoImplicit false

/-!
The types that can be spelled, and that each of them can be spelled along every table.
-/

namespace MangledNames.Grammar

open Cursor

/-- Types made of builtin types, class names and template parameters, whatever way they are
spelled. -/
inductive Spellable : Phrase → Prop
  | builtin {type : BuiltinType} {code : List Char} : BuiltinCode type code →
    Spellable (.type (.builtinType type))
  | templateParam {i : Nat} : i ≤ 10 ^ numberDigitsMax → Spellable (.type (.templateParam i))
  | wrapped {code : List Char} {wrap : Node → Node} {inner : Node} : Wrapping code wrap →
    Spellable (.type inner) → Spellable (.type (wrap inner))
  | qualified {inner : Node} {cv : CvQualifiers} : cv.isEmpty = false →
    (∀ inner' cv', inner ≠ .qualifiedType inner' cv') → (∀ f, inner ≠ .functionType f) →
    Spellable (.type inner) → Spellable (.type (.qualifiedType inner cv))
  | pointerToMember {classType memberType : Node} : Spellable (.type classType) →
    Spellable (.type memberType) → Spellable (.type (.pointerToMemberType classType memberType))
  | array {element : Node} {bound : Option Nat} : (∀ size ∈ bound, size < 10 ^ numberDigitsMax) →
    Spellable (.type element) → Spellable (.type (.arrayType element (bound.map .size)))
  | vector {element : Node} {size : Nat} : size < 10 ^ numberDigitsMax →
    Spellable (.type element) → Spellable (.type (.vectorType element (.size size)))
  | function (f : FunctionType Node) : Spellable (.spec f.exceptionSpec) →
    Spellable (.type f.returnType) → Spellable (.types f.parameters) →
    (∀ type ∈ f.parameters, type ≠ .builtinType .void) → Spellable (.type (.functionType f))
  | noSpec : Spellable (.spec none)
  | noexcept : Spellable (.spec (some (.noexcept none)))
  | throwing {types : List Node} : Spellable (.types types) →
    Spellable (.spec (some (.throwing types)))
  | noTypes : Spellable (.types [])
  | moreTypes {type : Node} {types : List Node} : Spellable (.type type) →
    Spellable (.types types) → Spellable (.types (type :: types))
  | className {name : String} : Identifier name → Spellable (.type (.sourceName name))
  | template {name : String} {arguments : List Node} : Identifier name →
    Spellable (.types arguments) → Spellable (.type (.templateName (.sourceName name) arguments))
  | nestedName {scope : Node} {name : String} : Spellable (.scope scope) → Identifier name →
    Spellable (.type (.nestedName scope (.sourceName name)))
  | nestedTemplate {scope : Node} {name : String} {arguments : List Node} :
    Spellable (.scope scope) → Identifier name → Spellable (.types arguments) →
    Spellable (.type (.templateName (.nestedName scope (.sourceName name)) arguments))
  | scopeName {name : String} : Identifier name → Spellable (.scope (.sourceName name))
  | scopeMember {scope : Node} {name : String} : Spellable (.scope scope) → Identifier name →
    Spellable (.scope (.nestedName scope (.sourceName name)))
  | scopeTemplate {scope : Node} {arguments : List Node} : Spellable (.scope scope) →
    Spellable (.types arguments) → Spellable (.scope (.templateName scope arguments))

/-- More levels leave room for the same spelling. -/
theorem Spells.mono {n : Nat} {table table' : Substitutions} {phrase : Phrase} {text : List Char}
    (h : Spells n table phrase text table') {k : Nat} (hk : n ≤ k) :
    Spells k table phrase text table' := by
  induction h generalizing k with
  | builtin h =>
    obtain ⟨j,rfl⟩ := Nat.exists_eq_add_of_le' hk
    exact .builtin h
  | reference h =>
    obtain ⟨j,rfl⟩ := Nat.exists_eq_add_of_le' hk
    exact .reference h
  | templateParam h =>
    obtain ⟨j,rfl⟩ := Nat.exists_eq_add_of_le' hk
    exact .templateParam h
  | wrapped hw _ ih =>
    obtain ⟨j,rfl⟩ := Nat.exists_eq_add_of_le' hk
    exact .wrapped hw (ih (Nat.le_add_left _ _))
  | qualified hcv _ htext ih =>
    obtain ⟨j,rfl⟩ := Nat.exists_eq_add_of_le' hk
    exact .qualified hcv (ih (Nat.le_add_left _ _)) htext
  | pointerToMember _ _ ih ih' =>
    obtain ⟨j,rfl⟩ := Nat.exists_eq_add_of_le' hk
    exact .pointerToMember (ih (Nat.le_add_left _ _)) (ih' (Nat.le_add_left _ _))
  | array hbound _ ih =>
    obtain ⟨j,rfl⟩ := Nat.exists_eq_add_of_le' hk
    exact .array hbound (ih (Nat.le_add_left _ _))
  | vector hsize _ ih =>
    obtain ⟨j,rfl⟩ := Nat.exists_eq_add_of_le' hk
    exact .vector hsize (ih (Nat.le_add_left _ _))
  | function ref externC transactionSafe _ _ _ ih ih' ih'' =>
    obtain ⟨j,rfl⟩ := Nat.exists_eq_add_of_le' hk
    exact .function ref externC transactionSafe (ih (Nat.le_add_left _ _))
      (ih' (Nat.le_add_left _ _)) (ih'' (Nat.le_add_left _ _))
  | noSpec => exact .noSpec
  | noexcept => exact .noexcept
  | throwing _ ih => exact .throwing (ih hk)
  | noParameters => exact .noParameters
  | parameters hne hvoid _ ih => exact .parameters hne hvoid (ih hk)
  | noTypes => exact .noTypes
  | moreTypes _ _ ih ih' => exact .moreTypes (ih hk) (ih' hk)
  | className h =>
    obtain ⟨j,rfl⟩ := Nat.exists_eq_add_of_le' hk
    exact .className h
  | template h _ ih =>
    obtain ⟨j,rfl⟩ := Nat.exists_eq_add_of_le' hk
    exact .template h (ih (Nat.le_add_left _ _))
  | referredTemplate h _ ih =>
    obtain ⟨j,rfl⟩ := Nat.exists_eq_add_of_le' hk
    exact .referredTemplate h (ih (Nat.le_add_left _ _))
  | nestedName h _ ih =>
    obtain ⟨j,rfl⟩ := Nat.exists_eq_add_of_le' hk
    exact .nestedName h (ih (Nat.succ_le_succ (Nat.le_add_left _ _)))
  | nestedTemplate _ _ ih ih' =>
    obtain ⟨j,rfl⟩ := Nat.exists_eq_add_of_le' hk
    exact .nestedTemplate (ih (Nat.add_le_add_right (Nat.le_add_left _ _) 2))
      (ih' (Nat.le_add_left _ _))
  | scopeName h =>
    obtain ⟨j,rfl⟩ := Nat.exists_eq_add_of_le' hk
    exact .scopeName h
  | scopeReference h => exact .scopeReference h
  | scopeMember h _ ih =>
    obtain ⟨j,rfl⟩ := Nat.exists_eq_add_of_le' hk
    exact .scopeMember h (ih (Nat.succ_le_succ (Nat.le_add_left _ _)))
  | scopeTemplate _ _ ih ih' =>
    obtain ⟨j,rfl⟩ := Nat.exists_eq_add_of_le' hk
    exact .scopeTemplate (ih (Nat.add_le_add_right (Nat.le_add_left _ _) 2))
      (ih' (Nat.le_add_left _ _))

/-- Only qualified types and qualified function types are spelled with qualifiers first. -/
theorem Spells.unqualified {n : Nat} {table table' : Substitutions} {node : Node} {text : List Char}
    (h : Spells n table (.type node) text table')
    (hqualified : ∀ inner cv, node ≠ .qualifiedType inner cv)
      (hfunction : ∀ f, node ≠ .functionType f) :
    ∀ c ∈ text.head?, c ∉ ['r','V','K'] := by
  have started : ∀ {c : Char} {rest : List Char}, c ∉ ['r','V','K'] →
      ∀ x ∈ (c :: rest).head?, x ∉ ['r','V','K'] := by
    rintro c rest hc x ⟨rfl⟩
    exact hc
  have identifier_starts : ∀ (name : String) (rest : List Char),
      ∀ c ∈ (identifierCode name ++ rest).head?, c ∉ ['r','V','K'] := by
    intro name rest
    obtain ⟨c,code,hc,hcode⟩ := identifierCode_head name
    have hr : c ≠ 'r' := ne_of_class hc rfl
    have hV : c ≠ 'V' := ne_of_class hc rfl
    have hK : c ≠ 'K' := ne_of_class hc rfl
    rw [hcode]
    exact started (by simp [hr,hV,hK])
  have reference_starts : ∀ (i : Nat) (rest : List Char),
      ∀ c ∈ (backReference i ++ rest).head?, c ∉ ['r','V','K'] := by
    intro i rest
    obtain ⟨c,code,hcode,_⟩ := backReference_head i
    rw [hcode]
    exact started (by decide)
  cases h with
  | builtin h =>
    cases h with
    | afterD h => exact started (by decide)
    | letter h =>
      unfold BuiltinType.ofLetter? at h
      split at h
      all_goals
        cases h
        try exact started (by decide)
  | @reference _ _ _ i h =>
    have hstart := reference_starts i []
    rwa [List.append_nil] at hstart
  | @templateParam _ _ i h =>
    obtain ⟨c,code,hcode,_⟩ := templateParamCode_head i
    rw [hcode]
    exact started (by decide)
  | wrapped hw h => cases hw <;> exact started (by decide)
  | @qualified _ _ _ _ inner cv _ _ _ =>
    cases inner
    case functionType => exact absurd rfl (hfunction _)
    all_goals exact absurd rfl (hqualified _ _)
  | pointerToMember => exact started (by decide)
  | array => exact started (by decide)
  | vector => exact started (by decide)
  | function => exact absurd rfl (hfunction _)
  | @className _ _ name h =>
    have hstart := identifier_starts name []
    rwa [List.append_nil] at hstart
  | template => exact identifier_starts _ _
  | referredTemplate => exact reference_starts _ _
  | nestedName => exact started (by decide)
  | nestedTemplate => exact started (by decide)

theorem qualified_eq {inner : Node} {cv : CvQualifiers} (h : ∀ f, inner ≠ .functionType f) :
    qualified cv inner = .qualifiedType inner cv := by
  cases inner
  case functionType f => exact absurd rfl (h f)
  all_goals rfl

/-- A function type with no qualifiers is spelled from its exception specification or its `F` on. -/
theorem functionText_unqualified {spec : Option (ExceptionSpec Node)} {text : List Char}
    (h : (Phrase.spec spec).Starts text) (transactionSafe : Bool) (rest : List Char) :
    ∀ c ∈ (text ++ ((if transactionSafe then ['D','x'] else []) ++ 'F' :: rest)).head?,
      c ∉ ['r','V','K'] := by
  have hstart := (function_starts h transactionSafe rest).1
  unfold FunctionStart at hstart
  split at hstart
  · rename_i htext
    rw [htext]
    rintro c ⟨rfl⟩
    decide
  · rename_i htext
    rw [htext]
    rintro c ⟨rfl⟩
    decide
  · exact hstart.elim

/-- Along every table, what can be spelled can be spelled in full. -/
theorem Spellable.spells_inFull {phrase : Phrase} (h : Spellable phrase) (table : Substitutions) :
    ∃ n table', Spells n table phrase phrase.inFull table' := by
  induction h generalizing table with
  | builtin h =>
    obtain rfl := h.code_eq
    exact ⟨1,_,.builtin h⟩
  | templateParam h => exact ⟨1,_,.templateParam h⟩
  | wrapped hw _ ih =>
    obtain ⟨n,table',h⟩ := ih table
    rw [Phrase.inFull,hw.typeCode_wrap]
    exact ⟨n + 1,_,.wrapped hw h⟩
  | @qualified inner cv hcv hqualified hfunction _ ih =>
    obtain ⟨n,table',h⟩ := ih table
    have hspelled := Spells.qualified hcv h (h.unqualified hqualified hfunction)
    rw [qualified_eq hfunction] at hspelled
    exact ⟨n + 1,_,hspelled⟩
  | pointerToMember _ _ ih ih' =>
    obtain ⟨n,table',h⟩ := ih table
    obtain ⟨k,table'',h'⟩ := ih' table'
    exact ⟨max n k + 1,_,.pointerToMember (h.mono (Nat.le_max_left n k))
      (h'.mono (Nat.le_max_right n k))⟩
  | array hbound _ ih =>
    obtain ⟨n,table',h⟩ := ih table
    rw [Phrase.inFull,typeCode_array]
    exact ⟨n + 1,_,.array hbound h⟩
  | vector hsize _ ih =>
    obtain ⟨n,table',h⟩ := ih table
    exact ⟨n + 1,_,.vector hsize h⟩
  | function f _ _ _ hvoid ihspec ihreturn ihparameters =>
    obtain ⟨n₁,table₁,hspec⟩ := ihspec table
    obtain ⟨n₂,table₂,hreturn⟩ := ihreturn table₁
    obtain ⟨n₃,table₃,hparameters⟩ : ∃ n table₃,
        Spells n table₂ (.parameters f.parameters)
        (Phrase.parameters f.parameters).inFull table₃ := by
      cases hparameters : f.parameters with
      | nil => exact ⟨0,_,.noParameters⟩
      | cons type types =>
        rw [hparameters] at ihparameters hvoid
        obtain ⟨n,table₃,h⟩ := ihparameters table₂
        exact ⟨n,_,.parameters (List.cons_ne_nil type types) hvoid h⟩
    have hmax : n₁ ≤ max n₁ (max n₂ n₃) ∧ n₂ ≤ max n₁ (max n₂ n₃) ∧ n₃ ≤ max n₁ (max n₂ n₃) := by
      omega
    have hbare := Spells.function f.ref f.externC f.transactionSafe (hspec.mono hmax.1)
      (hreturn.mono hmax.2.1) (hparameters.mono hmax.2.2)
    obtain ⟨returnType,parameters,cv,ref,spec,externC,transactionSafe⟩ := f
    cases hcv : cv.isEmpty with
    | true =>
      obtain rfl := (CvQualifiers.isEmpty_iff cv).mp hcv
      exact ⟨_,_,hbare⟩
    | false =>
      have hspelled := Spells.qualified hcv hbare (functionText_unqualified hspec.starts _ _)
      have hunion : CvQualifiers.union {} cv = cv := CvQualifiers.none_union cv
      simp only [Grammar.qualified,hunion] at hspelled
      exact ⟨_,_,hspelled⟩
  | noSpec => exact ⟨0,_,.noSpec⟩
  | noexcept => exact ⟨0,_,.noexcept⟩
  | throwing _ ih =>
    obtain ⟨n,table',h⟩ := ih table
    exact ⟨n,_,.throwing h⟩
  | noTypes => exact ⟨0,_,.noTypes⟩
  | moreTypes _ _ ih ih' =>
    obtain ⟨n,table',h⟩ := ih table
    obtain ⟨k,table'',h'⟩ := ih' table'
    exact ⟨max n k,_,.moreTypes (h.mono (Nat.le_max_left n k)) (h'.mono (Nat.le_max_right n k))⟩
  | className h => exact ⟨3,_,.className h⟩
  | @template name _ h _ ih =>
    obtain ⟨n,table',h'⟩ := ih (table.append (.sourceName name))
    exact ⟨n + 4,_,.template h h'⟩
  | nestedName _ h ih =>
    obtain ⟨n,table',hscope⟩ := ih table
    exact ⟨n + 4,_,.nestedName h (hscope.mono (Nat.le_succ n))⟩
  | @nestedTemplate scope name _ _ h _ ih ih' =>
    obtain ⟨n,table',hscope⟩ := ih table
    have hname := Spells.scopeMember h (hscope.mono (Nat.le_succ n))
    obtain ⟨k,table'',harguments⟩ := ih' (table'.append (.nestedName scope (.sourceName name)))
    exact ⟨max n k + 5,_,.nestedTemplate (hname.mono (by omega))
      (harguments.mono (Nat.le_max_right n k))⟩
  | scopeName h => exact ⟨1,_,.scopeName h⟩
  | scopeMember _ h ih =>
    obtain ⟨n,table',hscope⟩ := ih table
    exact ⟨n + 1,_,.scopeMember h (hscope.mono (Nat.le_succ n))⟩
  | scopeTemplate _ _ ih ih' =>
    obtain ⟨n,table',hscope⟩ := ih table
    obtain ⟨k,table'',harguments⟩ := ih' table'
    exact ⟨max n k + 2,_,.scopeTemplate (hscope.mono (by omega))
      (harguments.mono (Nat.le_max_right n k))⟩

theorem Spellable.exists_spelling {phrase : Phrase} (h : Spellable phrase) (table : Substitutions) :
    ∃ n text table', Spells n table phrase text table' := by
  obtain ⟨n,table',hspelled⟩ := h.spells_inFull table
  exact ⟨n,_,table',hspelled⟩

theorem Spellable.starts {phrase : Phrase} (h : Spellable phrase) :
    phrase.Starts phrase.inFull := by
  obtain ⟨n,table',hspelled⟩ := h.spells_inFull {}
  exact hspelled.starts

end MangledNames.Grammar
