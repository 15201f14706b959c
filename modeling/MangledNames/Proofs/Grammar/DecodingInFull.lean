import MangledNames.Proofs.Grammar.Spellable
set_option autoImplicit false

/-!
Types that are spelled in full are read wherever they stand, also where arguments do not belong to
the names of types.
-/

namespace MangledNames.Grammar

open Cursor

theorem Spellable.reads_inFull {phrase : Phrase} (h : Spellable phrase) (allowed : Bool) {n : Nat}
    (hn : phrase.levels ≤ n) (table : Substitutions) :
    ∃ table', phrase.Reading allowed n table phrase.inFull table' := by
  -- In full nothing is referred to, so that a part may be read along whatever table
  -- the others leave.
  induction h generalizing allowed n table with
  | builtin h =>
    obtain rfl := h.code_eq
    simp only [Phrase.levels,Node.typeLevels] at hn
    obtain ⟨k,rfl⟩ := Nat.exists_eq_add_of_le' hn
    exact ⟨_,fun rest _ => nested_reads (builtin_reads h)⟩
  | @templateParam i h =>
    simp only [Phrase.levels,Node.typeLevels] at hn
    obtain ⟨k,rfl⟩ := Nat.exists_eq_add_of_le' hn
    refine ⟨_,fun rest hrest => nested_reads (templateParamType_reads h ?_)⟩
    rw [hrest.arguments,Bool.and_false]
  | wrapped hw _ ih =>
    simp only [Phrase.levels,hw.typeLevels_wrap] at hn ih
    simp only [Phrase.inFull,hw.typeCode_wrap]
    obtain ⟨k,rfl⟩ := Nat.exists_eq_add_of_le' (show 1 ≤ n by omega)
    obtain ⟨table',hinner⟩ := ih allowed (n := k) (by omega) table
    exact ⟨_,wrapped_reading hw hinner⟩
  | @qualified inner cv hcv hqualified hfunction h ih =>
    simp only [Phrase.levels,Node.typeLevels] at hn ih
    obtain ⟨k,rfl⟩ := Nat.exists_eq_add_of_le' (show 1 ≤ n by omega)
    obtain ⟨table',hinner⟩ := ih allowed (n := k) (by omega) table
    obtain ⟨_,_,hspelled⟩ := h.spells_inFull table
    have hread := qualified_reading hcv (Opens.ne_nil h.starts)
      (hspelled.unqualified hqualified hfunction) hinner
    rw [qualified_eq hfunction] at hread
    exact ⟨_,hread⟩
  | pointerToMember _ h' ih ih' =>
    simp only [Phrase.levels,Node.typeLevels] at hn ih ih'
    obtain ⟨k,rfl⟩ := Nat.exists_eq_add_of_le' (show 1 ≤ n by omega)
    obtain ⟨table',hclass⟩ := ih allowed (n := k) (by omega) table
    obtain ⟨table'',hmember⟩ := ih' allowed (n := k) (by omega) table'
    exact ⟨_,pointerToMember_reading h'.starts hclass hmember⟩
  | array hbound _ ih =>
    simp only [Phrase.levels,Node.typeLevels] at hn ih
    simp only [Phrase.inFull,typeCode_array]
    obtain ⟨k,rfl⟩ := Nat.exists_eq_add_of_le' (show 1 ≤ n by omega)
    obtain ⟨table',helement⟩ := ih allowed (n := k) (by omega) table
    exact ⟨_,array_reading hbound helement⟩
  | vector hsize _ ih =>
    simp only [Phrase.levels,Node.typeLevels] at hn ih
    obtain ⟨k,rfl⟩ := Nat.exists_eq_add_of_le' (show 1 ≤ n by omega)
    obtain ⟨table',helement⟩ := ih allowed (n := k) (by omega) table
    exact ⟨_,vector_reading hsize helement⟩
  | function f hspec hreturn hparameters hvoid ihspec ihreturn ihparameters =>
    obtain ⟨returnType,parameters,cv,ref,spec,externC,transactionSafe⟩ := f
    simp only [Phrase.levels,Node.typeLevels] at hn ihspec ihreturn ihparameters
    have hstarts : (Phrase.parameters parameters).Starts (Node.parametersCode parameters) := by
      cases parameters with
      | nil => exact .inr ⟨_,builtinCode_opens (.letter rfl)⟩
      | cons type types => exact hparameters.starts
    have hparametersRead : ∀ m, Node.typesLevels parameters ≤ m → ∀ table, ∃ table',
        (Phrase.parameters parameters).Reading allowed m table (Node.parametersCode parameters)
          table' := by
      intro m hm table
      cases parameters with
      | nil => exact ⟨_,fun ref rest => noParameters_reads ref⟩
      | cons type types =>
        obtain ⟨table',htypes⟩ := ihparameters allowed hm table
        exact ⟨_,parameters_reading hvoid htypes⟩
    -- the function without its qualifiers
    have hbare : ∀ m, max (Node.specLevels spec) (max returnType.typeLevels
        (Node.typesLevels parameters)) ≤ m → ∃ table',
        (Phrase.type
          (.functionType ⟨returnType,parameters,{},ref,spec,externC,transactionSafe⟩)).Reading
          allowed (m + 1) table
            (Node.specCode spec ++ ((if transactionSafe then ['D','x'] else []) ++
            'F' :: ((if externC then ['Y'] else []) ++ (returnType.typeCode ++
              (Node.parametersCode parameters ++ functionEnd ref))))) table' := by
      intro m hm
      obtain ⟨table₁,hspecRead⟩ := ihspec allowed (n := m) (by omega) table
      obtain ⟨table₂,hreturnRead⟩ := ihreturn allowed (n := m) (by omega) table₁
      obtain ⟨table₃,hread⟩ := hparametersRead m (by omega) table₂
      exact ⟨_,function_reading ref externC transactionSafe hspec.starts hreturn.starts hstarts
        hspecRead hreturnRead hread⟩
    cases hcv : cv.isEmpty with
    | true =>
      obtain rfl := (CvQualifiers.isEmpty_iff cv).mp hcv
      rw [hcv,if_pos rfl] at hn
      obtain ⟨k,rfl⟩ := Nat.exists_eq_add_of_le' (show 1 ≤ n by omega)
      exact hbare k (by omega)
    | false =>
      rw [hcv,if_neg Bool.false_ne_true] at hn
      obtain ⟨k,rfl⟩ := Nat.exists_eq_add_of_le' (show 2 ≤ n by omega)
      obtain ⟨table',hread⟩ := hbare k (by omega)
      exact ⟨_,qualified_reading hcv (by simp)
        (functionText_unqualified hspec.starts transactionSafe _) hread⟩
  | noSpec => exact ⟨_,fun rest hrest => noSpec_reads hrest⟩
  | noexcept => exact ⟨_,fun rest _ => noexcept_reads⟩
  | throwing _ ih =>
    obtain ⟨table',htypes⟩ := ih allowed hn table
    exact ⟨_,throwing_reading htypes⟩
  | noTypes => exact ⟨_,fun rest _ => .nil rest _⟩
  | moreTypes h h' ih ih' =>
    simp only [Phrase.levels,Node.typesLevels] at hn ih ih'
    obtain ⟨table',htype⟩ := ih allowed (n := n) (by omega) table
    obtain ⟨table'',htypes⟩ := ih' allowed (n := n) (by omega) table'
    exact ⟨_,moreTypes_reading h.starts h'.starts htype htypes⟩
  | className h =>
    simp only [Phrase.levels,Node.typeLevels] at hn
    obtain ⟨k,rfl⟩ := Nat.exists_eq_add_of_le' hn
    exact ⟨_,className_reading h⟩
  | @template name _ h _ ih =>
    simp only [Phrase.levels,Node.typeLevels] at hn ih
    obtain ⟨k,rfl⟩ := Nat.exists_eq_add_of_le' (show 4 ≤ n by omega)
    obtain ⟨table',harguments⟩ := ih true (n := k) (by omega) (table.append (.sourceName name))
    exact ⟨_,template_reading h harguments⟩
  | nestedName hscope h ih =>
    simp only [Phrase.levels,Node.typeLevels] at hn ih
    obtain ⟨k,rfl⟩ := Nat.exists_eq_add_of_le' (show 4 ≤ n by omega)
    obtain ⟨table',hbefore⟩ := ih allowed (n := k + 1) (by omega) table
    exact ⟨_,nestedName_reading h hscope.starts hbefore⟩
  | nestedTemplate hscope h _ ih ih' =>
    simp only [Phrase.levels,Node.typeLevels,Node.scopeLevels] at hn ih ih'
    obtain ⟨k,rfl⟩ := Nat.exists_eq_add_of_le' (show 5 ≤ n by omega)
    obtain ⟨table',hbefore⟩ := ih allowed (n := k + 2) (by omega) table
    have hname := scopeMember_reading h hbefore
    obtain ⟨table'',harguments⟩ := ih' true (n := k) (by omega) _
    exact ⟨_,nestedTemplate_reading (Spellable.scopeMember hscope h).starts hname harguments⟩
  | scopeName h =>
    simp only [Phrase.levels,Node.scopeLevels] at hn
    obtain ⟨k,rfl⟩ := Nat.exists_eq_add_of_le' hn
    exact ⟨_,scopeName_reading h⟩
  | scopeMember _ h ih =>
    simp only [Phrase.levels,Node.scopeLevels] at hn ih
    obtain ⟨k,rfl⟩ := Nat.exists_eq_add_of_le' (show 1 ≤ n by omega)
    obtain ⟨table',hbefore⟩ := ih allowed (n := k + 1) (by omega) table
    exact ⟨_,scopeMember_reading h hbefore⟩
  | scopeTemplate _ _ ih ih' =>
    simp only [Phrase.levels,Node.scopeLevels] at hn ih ih'
    obtain ⟨k,rfl⟩ := Nat.exists_eq_add_of_le' (show 2 ≤ n by omega)
    obtain ⟨table',hbefore⟩ := ih allowed (n := k + 2) (by omega) table
    obtain ⟨table'',harguments⟩ := ih' true (n := k) (by omega) table'
    exact ⟨_,scopeTemplate_reading hbefore harguments⟩

end MangledNames.Grammar
