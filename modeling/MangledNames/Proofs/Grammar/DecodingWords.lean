import MangledNames.Proofs.Grammar.Decoding
import MangledNames.Proofs.Grammar.Spelling
import MangledNames.Grammar.Type
set_option autoImplicit false

/-!
Reading the words that are spelled: identifiers, back references, parameters and qualifiers.
-/

namespace MangledNames.Grammar

open Cursor

section
variable {allowed : Bool} {rest : List Char} {table : Substitutions}

/-- The length of an identifier ends before its first character. -/
theorem Nameable.head_append {name : String} (h : Nameable name) (rest : List Char) :
    (name.toList ++ rest).head?.any isDigit = false := by
  rw [List.head?_append_of_ne_nil _ h.ne_nil]
  exact h.head

theorem identifier_gives {name : String} (h : Nameable name) (rest : List Char) :
    Gives identifier (Cursor.At (identifierCode name ++ rest)) name (Cursor.At rest) := by
  have hlength : ¬name.toList.length = 0 := by
    simpa using h.ne_nil
  unfold identifier
  refine Cursor.get_then fun start _ => ?_
  rw [identifierCode,List.append_assoc]
  refine (unsigned_gives _ h.length_lt (h.head_append rest)).bind (.ifNeg hlength ?_)
  refine (takeChars_gives name.toList _ rest).bind ?_
  rw [String.ofList_toList]
  exact .pure

theorem properText_wellFormed {name : String} (h : Nameable name) :
    (Node.sourceName (properText name)).wellFormed = true := by
  unfold properText
  split
  · rfl
  · have hne := h.ne_nil
    simpa [Node.wellFormed] using hne

theorem properName_reads {name : String} (h : Nameable name) (rest : List Char) :
    Reads allowed properName (identifierCode name ++ rest) table (properText name) rest table := by
  unfold properName
  refine (scanned (identifier_gives h rest)).bind ?_
  exact (build_reads (properText_wellFormed h)).bind .pure

theorem printedName_reads {name : String} (h : Nameable name) (rest : List Char) :
    Reads allowed sourceName (identifierCode name ++ rest) table
      (.sourceName (properText name)) rest table := (properName_reads h rest).map Node.sourceName

theorem sourceName_reads {name : String} (h : Identifier name) (rest : List Char) :
    Reads allowed sourceName (identifierCode name ++ rest) table (.sourceName name) rest table := by
  have hread : Reads allowed sourceName (identifierCode name ++ rest) table
      (.sourceName (properText name)) rest table := printedName_reads h.nameable rest
  rwa [h.properText_eq] at hread

/-- Digits are read up to what is no digit, however many they are. -/
theorem seqId_apply (production : String) {found rest : List Char} (hne : found ≠ [])
    (hfound : ∀ c ∈ found, isSeqDigit c = true) (hrest : rest.head?.any isSeqDigit = false)
    (passed : List Char) :
    seqId production ⟨passed,found ++ rest⟩ = .ok (numeral 36 found)
      ⟨found.reverse ++ passed,rest⟩ := by
  have htake := takeWhile_append hfound hrest
  have hadvance := advance_eq found passed rest
  cases found with
  | nil => exact absurd rfl hne
  | cons x found =>
    simp only [List.cons_append] at htake hadvance
    simpa [seqId,htake] using hadvance

theorem seqId_gives (production : String) (n : Nat) (rest : List Char) :
    Gives (seqId production) (Cursor.At (spelled 36 n ++ '_' :: rest)) n
      (Cursor.At ('_' :: rest)) := by
  refine ⟨fun c hc => ⟨⟨(spelled 36 n).reverse ++ c.passed,'_' :: rest⟩,?_,rfl⟩⟩
  rw [hc.eq,seqId_apply production (spelled_ne_nil n) (isSeqDigit_spelled n) rfl,
    numeral_spelled (by decide) (by decide)]

/-- The digits of base 36 are no lower case letters and end no number. -/
theorem digitChar_seq {d : Nat} (h : d < 36) :
    isLower (digitChar d) = false ∧ ('_' == digitChar d) = false := by
  revert d
  decide

theorem digitChar_decimal {d : Nat} (h : d < 10) :
    ('L' == digitChar d) = false ∧ isParamDeclaration (digitChar d) = false := by
  revert d
  decide

theorem spelled_no_end (base n : Nat) (hb : 1 < base) (hb' : base ≤ 36) (rest : List Char) :
    "_".toList.isPrefixOf (spelled base n ++ rest) = false := by
  obtain ⟨d,digits,hd,hs⟩ := spelled_head base n hb
  rw [hs]
  change ('_' == digitChar d && _) = false
  rw [(digitChar_seq (by omega)).2]
  rfl

/-- A back reference is no name in `std`. -/
theorem backReference_head (i : Nat) :
    ∃ c code, backReference i = 'S' :: c :: code ∧ c ≠ 't' := by
  cases i with
  | zero => exact ⟨'_',[],rfl,by decide⟩
  | succ i =>
    obtain ⟨d,digits,hd,hs⟩ := spelled_head 36 i (by decide)
    refine ⟨digitChar d,digits ++ ['_'],by simp [backReference,hs],fun ht => ?_⟩
    have hlower := (digitChar_seq hd).1
    rw [ht] at hlower
    cases hlower

/-- A template parameter is no elaborated type. -/
theorem templateParamCode_head (i : Nat) :
    ∃ c code, templateParamCode i = 'T' :: c :: code ∧ ElaboratedKeyword.ofLetter? c = none := by
  have hdigits : ∀ d < 10, ElaboratedKeyword.ofLetter? (digitChar d) = none := by decide
  cases i with
  | zero => exact ⟨'_',[],rfl,rfl⟩
  | succ i =>
    obtain ⟨d,digits,hd,hs⟩ := spelled_head 10 i (by decide)
    exact ⟨digitChar d,digits ++ ['_'],by simp [templateParamCode,hs],hdigits d hd⟩

/-- A back reference to an entry of the table reads the entry. -/
theorem tableEntry_reads {node : Node} {i : Nat} (h : table.entries[i]? = some node) (offset : Nat)
    (rest : List Char) :
    Reads allowed (do
      match (← get).substitutions.resolve i offset with
      | .ok node => return node
      | .error error => fail error) rest table node rest table := by
  have hresolve : table.resolve i offset = .ok node := by simp [Substitutions.resolve,h]
  refine get_then fun context hcontext => ?_
  rw [hcontext.substitutions,hresolve]
  exact .pure

theorem substitution_reads {node : Node} {i : Nat} (h : table.entries[i]? = some node)
    (rest : List Char) :
    Reads allowed substitution (backReference i ++ rest) table node rest table := by
  unfold substitution
  refine here_then fun start _ => ?_
  cases i with
  | zero =>
    refine (scanned (expect_gives "S" _ ('_' :: rest))).bind ?_
    refine (scanned (peekIs_gives rfl)).bind ?_
    refine (scanned (consume_gives "_" rest)).bind ?_
    exact tableEntry_reads h start.position rest
  | succ i =>
    have hcode : backReference (i + 1) ++ rest = 'S' :: (spelled 36 i ++ '_' :: rest) := by
      simp [backReference]
    have hlower : (spelled 36 i ++ '_' :: rest)[0]?.any isLower = false := by
      obtain ⟨d,found,hd,hs⟩ := spelled_head 36 i (by decide)
      rw [hs]
      exact (digitChar_seq hd).1
    rw [hcode]
    refine (scanned (expect_gives "S" _ (spelled 36 i ++ '_' :: rest))).bind ?_
    refine (scanned (peekIs_gives hlower)).bind ?_
    refine (scanned (consume_refuses (spelled_no_end 36 i (by decide) (by decide) _))).bind ?_
    refine (scanned (seqId_gives _ i rest)).bind ?_
    refine (scanned (expect_gives "_" _ rest)).bind ?_
    exact tableEntry_reads h start.position rest

theorem templateParam_reads {i : Nat} (h : i ≤ 10 ^ numberDigitsMax) (rest : List Char) :
    Reads allowed templateParam (templateParamCode i ++ rest) table
    (.templateParam i) rest table := by
  unfold templateParam
  refine here_then fun start _ => ?_
  cases i with
  | zero =>
    refine (scanned (expect_gives "T" _ ('_' :: rest))).bind ?_
    refine (scanned (lookingAt_gives rfl)).bind ((scanned (peekIs_gives rfl)).bind ?_)
    exact (scanned (consume_gives "_" rest)).bind .pure
  | succ i =>
    have hcode : templateParamCode (i + 1) ++ rest = 'T' :: (spelled 10 i ++ '_' :: rest) := by
      simp [templateParamCode]
    obtain ⟨d,found,hd,hs⟩ := spelled_head 10 i (by decide)
    have hlevel : "L".toList.isPrefixOf (spelled 10 i ++ '_' :: rest) = false := by
      rw [hs]
      change ('L' == digitChar d && _) = false
      rw [(digitChar_decimal hd).1]
      rfl
    have hdeclaration : (spelled 10 i ++ '_' :: rest)[0]?.any isParamDeclaration = false := by
      rw [hs]
      exact (digitChar_decimal hd).2
    rw [hcode]
    refine (scanned (expect_gives "T" _ (spelled 10 i ++ '_' :: rest))).bind ?_
    refine (scanned (lookingAt_gives hlevel)).bind ((scanned (peekIs_gives hdeclaration)).bind ?_)
    refine (scanned (consume_refuses (spelled_no_end 10 i (by decide) (by decide) _))).bind ?_
    refine (scanned (unsigned_gives _ (Nat.lt_of_succ_le h) rfl)).bind ?_
    exact (scanned (expect_gives "_" _ rest)).bind .pure

theorem consume_flag {literal : String} {c : Char} (hc : literal.toList = [c]) (flag : Bool)
    {rest : List Char} (hrest : rest.head? ≠ some c) :
    Gives (consume literal) (Cursor.At ((if flag then [c] else []) ++ rest)) flag
      (Cursor.At rest) := by
  cases flag with
  | true =>
    have h := consume_gives literal rest
    rwa [hc] at h
  | false =>
    refine consume_refuses ?_
    rw [hc]
    cases rest with
    | nil => rfl
    | cons x rest =>
      have hx : x ≠ c := by simpa using hrest
      simp [List.isPrefixOf,Ne.symm hx]

theorem cvQualifiers_gives (cv : CvQualifiers) (hrest : ∀ c ∈ rest.head?, c ∉ ['r','V','K']) :
    Gives cvQualifiers (Cursor.At (cvCode cv ++ rest)) cv (Cursor.At rest) := by
  obtain ⟨restrict,volatile,const⟩ := cv
  have head_ne : ∀ c ∈ ['r','V','K'], rest.head? ≠ some c := fun c hc hhead => hrest c hhead hc
  have hvolatile : ((if const then ['K'] else []) ++ rest).head? ≠ some 'V' := by
    cases const <;> simp [head_ne]
  have hrestrict : ((if volatile then ['V'] else []) ++
      ((if const then ['K'] else []) ++ rest)).head? ≠ some 'r' := by
    cases volatile <;> cases const <;> simp [head_ne]
  unfold cvQualifiers cvCode
  rw [List.append_assoc,List.append_assoc]
  refine (consume_flag rfl restrict hrestrict).bind ?_
  refine (consume_flag rfl volatile hvolatile).bind ?_
  exact (consume_flag rfl const (head_ne 'K' (by simp))).bind .pure

end

end MangledNames.Grammar
