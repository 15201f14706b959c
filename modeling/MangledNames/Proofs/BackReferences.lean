import MangledNames.Proofs.Grammar.DecodingWords
import MangledNames.Proofs.Grammar.Pointing
set_option autoImplicit false

/-!
Back references are read digit by digit, however many digits there are: what spells an index is read
as a whole, and gives that entry of the table or is rejected with the index.
-/

namespace MangledNames

open Cursor Grammar

/-- A zero in front of another digit. -/
def LeadsWithZero (code : List Char) : Prop :=
  ∃ c rest, code = '0' :: c :: rest ∧ isSeqDigit c = true

section
variable {i : Nat} {index : Int} {code : List Char}

theorem zeros_spelled (zeros number : Nat) :
    (∀ c ∈ List.replicate zeros '0' ++ spelled 36 number, isSeqDigit c = true) ∧
      numeral 36 (List.replicate zeros '0' ++ spelled 36 number) = number := by
  have hzero : numeral 36 (List.replicate zeros '0') = 0 := by
    induction zeros with
    | zero => rfl
    | succ zeros ih =>
      have hvalue : digitValue '0' = 0 := rfl
      rw [List.replicate_succ',numeral_concat,ih,hvalue]
  constructor
  · intro c hc
    rcases List.mem_append.mp hc with hc | hc
    · rw [List.eq_of_mem_replicate hc]
      rfl
    · exact isSeqDigit_spelled number c hc
  · rw [numeral_append,hzero,Nat.zero_mul,Nat.zero_add,numeral_spelled (by decide) (by decide)]

/-- The first index is spelled without digits; those of another are the number before it. -/
theorem SpellsIndex.digits (h : SpellsIndex index code) :
    ∃ digits, code = digits ++ ['_'] ∧ (∀ c ∈ digits, isSeqDigit c = true) ∧
      index = if digits = [] then 0 else (numeral 36 digits : Int) + 1 := by
  cases h with
  | first => exact ⟨[],rfl,by simp,rfl⟩
  | later zeros number =>
    obtain ⟨hdigits,hnumber⟩ := zeros_spelled zeros number
    have hne : List.replicate zeros '0' ++ spelled 36 number ≠ [] := by simp [spelled_ne_nil]
    exact ⟨_,rfl,hdigits,by rw [if_neg hne,hnumber]⟩

theorem SpellsIndex.index_unique {index' : Int} (h : SpellsIndex index code)
    (h' : SpellsIndex index' code) : index' = index := by
  obtain ⟨digits,hcode,-,hindex⟩ := h.digits
  obtain ⟨digits',hcode',-,hindex'⟩ := h'.digits
  obtain rfl : digits' = digits := List.append_cancel_right (hcode'.symm.trans hcode)
  rw [hindex,hindex']

theorem spelled_not_leadsWithZero (n : Nat) : ¬LeadsWithZero (spelled 36 n ++ ['_']) := by
  rintro ⟨c,rest,hcode,hc⟩
  unfold spelled at hcode
  split at hcode
  · obtain ⟨rfl,-⟩ : '_' = c ∧ [] = rest := by simpa using hcode
    cases hc
  · rename_i hn
    have hne : Nat.digits 36 n ≠ [] := Nat.digits_ne_nil_iff_ne_zero.mpr hn
    have hlast := Nat.getLast_digit_ne_zero 36 hn
    obtain ⟨digits,d,hdigits⟩ : ∃ digits d, Nat.digits 36 n = digits ++ [d] :=
      ⟨_,_,(List.dropLast_append_getLast hne).symm⟩
    simp only [hdigits,List.getLast_append_singleton] at hlast
    have hd : d < 36 := Nat.digits_lt_base (by decide) (hdigits ▸ List.mem_append_right _ (.head _))
    have hhead : digitChar d = '0' := by
      rw [hdigits,List.map_append,List.reverse_append] at hcode
      exact (List.cons.inj hcode).1
    have hvalue := digitValue_digitChar hd
    rw [hhead] at hvalue
    exact hlast hvalue.symm

/-- Of the spellings of an index one has no zeros in front. -/
theorem SpellsIndex.canonical (i : Nat) : ∃! code, SpellsIndex i code ∧ ¬LeadsWithZero code := by
  cases i with
  | zero =>
    refine ⟨['_'],⟨.first,by rintro ⟨c,rest,⟨⟩,-⟩⟩,?_⟩
    rintro code ⟨hcode,-⟩
    obtain ⟨digits,rfl,-,hindex⟩ := hcode.digits
    split at hindex
    · rename_i hempty
      rw [hempty]
      rfl
    · omega
  | succ number =>
    refine ⟨spelled 36 number ++ ['_'],⟨.later 0 number,spelled_not_leadsWithZero number⟩,?_⟩
    rintro code ⟨hcode,hleads⟩
    generalize hindex : ((number + 1 : Nat) : Int) = index at hcode
    cases hcode with
    | first => omega
    | later zeros number' =>
      obtain rfl : number' = number := by omega
      cases zeros with
      | zero => rfl
      | succ zeros =>
        -- behind the first zero comes another one, or the number itself
        obtain ⟨c,rest,hrest⟩ := List.exists_cons_of_ne_nil
          (show List.replicate zeros '0' ++ spelled 36 number' ≠ [] by simp [spelled_ne_nil])
        refine absurd
          ⟨c,rest ++ ['_'],?_,(zeros_spelled zeros number').1 c (hrest ▸ .head _)⟩ hleads
        rw [List.replicate_succ,List.cons_append,hrest]
        rfl

end

namespace Grammar

theorem scan_apply {α β : Type} {scan : Scan α} {q : α → Parser β} {context : Context} {a : α}
    {c after : Cursor} (h : scan c = .ok a after) :
    (liftM scan >>= q) (context.moved c) = q a (context.moved after) := by
  have hlift : (liftM scan : Parser α) (context.moved c) = .ok a (context.moved after) := by
    change scanning scan _ = _
    rw [scanning,Context.moved,h]
    rfl
  rw [bind_apply,hlift]

theorem expect_apply (literal production : String) (passed rest : List Char) :
    expect literal production ⟨passed,literal.toList ++ rest⟩ =
      .ok () ⟨literal.toList.reverse ++ passed,rest⟩ := by
  unfold expect
  rw [bind_apply,consume_apply,skip?_append]
  rfl

theorem resolve_apply (context : Context) (i offset : Nat) :
    (do
      match (← get).substitutions.resolve i offset with
      | .ok node => return node
      | .error error => fail error : Parser Node) context =
      match context.substitutions.entries[i]? with
      | some node => .ok node context
      | none =>
        .error (.error (.badBackReference i context.substitutions.size offset)) context := by
  have hresolve : context.substitutions.resolve i offset =
      match context.substitutions.entries[i]? with
      | some node => .ok node
      | none => .error (.badBackReference i context.substitutions.size offset) := if_neg (by omega)
  rw [bind_apply,get_apply]
  dsimp only
  rw [hresolve]
  cases context.substitutions.entries[i]? <;> rfl

theorem substitution_apply {i : Nat} {code : List Char} (hcode : SpellsIndex i code)
    (context : Context) (passed rest : List Char) :
    substitution (context.moved ⟨passed,'S' :: (code ++ rest)⟩) =
      match context.substitutions.entries[i]? with
      | some node => .ok node (context.moved ⟨code.reverse ++ 'S' :: passed,rest⟩)
      | none => .error (.error (.badBackReference i context.substitutions.size passed.length))
          (context.moved ⟨code.reverse ++ 'S' :: passed,rest⟩) := by
  obtain ⟨digits,rfl,hdigits,hindex⟩ := hcode.digits
  unfold substitution
  refine (bind_apply here _ _).trans ?_
  refine (scan_apply (expect_apply "S" "substitution" passed (digits ++ ['_'] ++ rest))).trans ?_
  cases digits with
  | nil =>
    obtain rfl : i = 0 := by exact_mod_cast hindex
    have hpeek : peekIs isLower 0 ⟨['S'] ++ passed,['_'] ++ rest⟩ =
        .ok false ⟨['S'] ++ passed,['_'] ++ rest⟩ := rfl
    have hend :
        consume "_" ⟨['S'] ++ passed,['_'] ++ rest⟩ = .ok true ⟨'_' :: 'S' :: passed,rest⟩ := by
      rw [consume_apply]
      rfl
    refine (scan_apply hpeek).trans ((scan_apply hend).trans ?_)
    exact resolve_apply _ 0 passed.length
  | cons c found =>
    obtain ⟨hlt,hchar⟩ := digitChar_digitValue (hdigits c (.head _))
    obtain ⟨hlower,hunderscore⟩ := digitChar_seq hlt
    rw [hchar] at hlower hunderscore
    obtain rfl : i = numeral 36 (c :: found) + 1 := by exact_mod_cast hindex
    have hpeek : peekIs isLower 0 ⟨['S'] ++ passed,c :: found ++ ['_'] ++ rest⟩ =
        .ok false ⟨['S'] ++ passed,c :: found ++ ['_'] ++ rest⟩ :=
      congrArg (EStateM.Result.ok · _) hlower
    have hmore : consume "_" ⟨['S'] ++ passed,c :: found ++ ['_'] ++ rest⟩ =
        .ok false ⟨['S'] ++ passed,c :: found ++ ['_'] ++ rest⟩ := by
      have hskip : skip? "_".toList ⟨['S'] ++ passed,c :: found ++ ['_'] ++ rest⟩ = none :=
        if_neg (beq_eq_false_iff_ne.mp hunderscore)
      rw [consume_apply,hskip]
    have hstop : (['_'] ++ rest).head?.any isSeqDigit = false := rfl
    have hseq :=
      seqId_apply "substitution" (List.cons_ne_nil c found) hdigits hstop (['S'] ++ passed)
    rw [← List.append_assoc] at hseq
    refine (scan_apply hpeek).trans ((scan_apply hmore).trans ((scan_apply hseq).trans ?_))
    refine (scan_apply (expect_apply "_" "substitution" _ rest)).trans ?_
    have hpassed : "_".toList.reverse ++ ((c :: found).reverse ++ (['S'] ++ passed)) =
        (c :: found ++ ['_']).reverse ++ 'S' :: passed := by simp
    rw [hpassed]
    exact resolve_apply _ _ passed.length

end Grammar

/-- What spells an index is read as a whole, and gives the entry of the table with this index if
there is one; otherwise the error tells the index, the size of the table and where the reference
stands. A spelling has one index, and each index one spelling without leading zeros. -/
theorem back_references_are_decoded (context : Context) (i : Nat) (code rest : List Char)
    (hcode : SpellsIndex i code) (hrest : context.cursor.rest = 'S' :: (code ++ rest)) :
    let table := context.substitutions
    let after := { context with cursor := ⟨code.reverse ++ 'S' :: context.cursor.passed,rest⟩ }
    (i < table.size → ∃ node, table.entries[i]? = some node ∧
      substitution context = .ok node after) ∧
      (table.size ≤ i → substitution context =
        .error (.error (.badBackReference i table.size context.cursor.position)) after) ∧
      (∀ j, SpellsIndex j code → j = i) ∧
      ∃! canonical, SpellsIndex i canonical ∧ ¬LeadsWithZero canonical := by
  obtain ⟨⟨passed,ahead⟩,substitutions,recursionLimit,depth,allowed,speculative⟩ := context
  obtain rfl : ahead = 'S' :: (code ++ rest) := hrest
  have hread := substitution_apply hcode
    ⟨⟨passed,'S' :: (code ++ rest)⟩,substitutions,recursionLimit,depth,allowed,speculative⟩
    passed rest
  refine ⟨fun hlt => ?_,fun hle => ?_,fun j hj => hcode.index_unique hj,SpellsIndex.canonical i⟩
  · rw [Array.getElem?_eq_getElem hlt] at hread
    exact ⟨_,Array.getElem?_eq_getElem hlt,hread⟩
  · rw [Array.getElem?_eq_none hle] at hread
    exact hread

/-- Of a table with three entries `S1_` names the last one, and `S00A_` a
twelfth one that is not there. -/
theorem back_references_are_decoded_in_and_out_of_range :
    let before (text : String) : Context :=
      { cursor := .start text.toList,
        substitutions := ⟨#[.templateParam 0,.templateParam 1,.templateParam 2]⟩,
        recursionLimit := 256 }
    let after (read : String) : Context :=
      { before read with cursor := ⟨read.toList.reverse,['v']⟩ }
    SpellsIndex 2 "1_".toList ∧ SpellsIndex 11 "00A_".toList ∧
      substitution (before "S1_v") = .ok (.templateParam 2) (after "S1_") ∧
      substitution (before "S00A_v") = .error (.error (.badBackReference 11 3 0))
        (after "S00A_") := by
  intro before after
  have hone : SpellsIndex 2 "1_".toList := .later 0 1
  have hten : SpellsIndex 11 "00A_".toList := by
    have hcode := SpellsIndex.later 2 10
    rwa [spelled_digit (by decide)] at hcode
  refine ⟨hone,hten,?_,?_⟩
  · obtain ⟨node,hnode,hread⟩ :=
      (back_references_are_decoded (before "S1_v") 2 _ ['v'] hone rfl).1 (by decide)
    cases hnode
    exact hread
  · exact (back_references_are_decoded _ 11 _ ['v'] hten rfl).2.1 (by decide)

end MangledNames
