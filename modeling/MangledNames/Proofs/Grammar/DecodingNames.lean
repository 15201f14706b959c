import MangledNames.Proofs.Grammar.DecodingWords
import MangledNames.Grammar.Encoding
set_option autoImplicit false

/-!
Reading class names that are spelled, on their own or in scopes.
-/

namespace MangledNames.Grammar

open Cursor

/-- Neither template arguments nor tags follow. -/
structure Closed (rest : List Char) : Prop where
  arguments : "I".toList.isPrefixOf rest = false
  tags : "B".toList.isPrefixOf rest = false

theorem closed_of_head {c : Char} {rest : List Char} (h : c ≠ 'I' ∧ c ≠ 'B') :
    Closed (c :: rest) := by
  constructor
  · simp [List.isPrefixOf,Ne.symm h.1]
  · simp [List.isPrefixOf,Ne.symm h.2]

theorem ne_of_class {ofClass : Char → Bool} {c x : Char} (hc : ofClass c = true)
    (hx : ofClass x = false) : c ≠ x := by
  rintro rfl
  rw [hx] at hc
  cases hc

/-- The first character is of some class. -/
def StartsWith (ofClass : Char → Bool) (text : List Char) : Prop := text.head?.any ofClass = true

namespace StartsWith

variable {ofClass : Char → Bool} {text : List Char}

theorem exists_cons (h : StartsWith ofClass text) :
    ∃ c rest, text = c :: rest ∧ ofClass c = true := by
  cases text with
  | nil => cases h
  | cons c rest => exact ⟨c,rest,rfl,h⟩

theorem ne_nil (h : StartsWith ofClass text) : text ≠ [] := by
  rintro rfl
  cases h

theorem append (h : StartsWith ofClass text) (rest : List Char) :
    StartsWith ofClass (text ++ rest) := by
  obtain ⟨c,more,rfl,hc⟩ := h.exists_cons
  exact hc

theorem length_lt (h : StartsWith ofClass text) (rest : List Char) :
    rest.length < (text ++ rest).length := by
  have hlength := List.length_pos_iff.mpr h.ne_nil
  simp only [List.length_append]
  omega

theorem head_ne (h : StartsWith ofClass text) {x : Char} (hx : ofClass x = false) :
    text.head? ≠ some x := by
  obtain ⟨c,rest,rfl,hc⟩ := h.exists_cons
  simpa using ne_of_class hc hx

/-- A literal that starts otherwise does not come. -/
theorem no_literal (h : StartsWith ofClass text) {literal : List Char}
    (hl : literal.head?.any (fun x => !ofClass x) = true) : literal.isPrefixOf text = false := by
  obtain ⟨c,rest,rfl,hc⟩ := h.exists_cons
  cases literal with
  | nil => cases hl
  | cons x literal =>
    have hx : (!ofClass x) = true := hl
    have hne : c ≠ x := ne_of_class hc (by simpa using hx)
    simp [List.isPrefixOf,Ne.symm hne]

theorem closed (h : StartsWith ofClass text) (hI : ofClass 'I' = false) (hB : ofClass 'B' = false) :
    Closed text := by
  constructor
  · exact h.no_literal (by simp [hI])
  · exact h.no_literal (by simp [hB])

end StartsWith

/-- Names without a scope start with these characters: identifiers with digits, operators with lower
case letters. -/
def isWordStart (c : Char) : Bool := isDigit c || isLower c

/-- A literal that starts with none of them does not come where a name without a scope comes. -/
theorem isPrefixOf_word {literal : List Char} {c : Char} {rest : List Char}
    (hc : isWordStart c = true) (hl : literal.head?.any (fun x => !isWordStart x) = true) :
    literal.isPrefixOf (c :: rest) = false :=
  (show StartsWith isWordStart (c :: rest) from hc).no_literal hl

theorem isWordStart_digit {c : Char} (h : isDigit c = true) : isWordStart c = true := by
  simp [isWordStart,h]

theorem identifierCode_head (name : String) :
    ∃ c rest, isDigit c = true ∧ identifierCode name = c :: rest := by
  obtain ⟨d,digits,hd,hs⟩ := spelled_head 10 name.toList.length (by decide)
  exact ⟨digitChar d,digits ++ name.toList,isDigit_digitChar hd,by rw [identifierCode,hs]; rfl⟩

section
variable {allowed : Bool} {r : Rules} {rest rest' rest'' : List Char}
  {table table' table'' : Substitutions}

theorem abiTags_reads (node : Node) (h : "B".toList.isPrefixOf rest = false) :
    Reads allowed (abiTags node) rest table node rest table := by
  have hend : Reads allowed (return !(← lookingAt "B")) rest table true rest table :=
    (scanned (lookingAt_gives h)).bind .pure
  have hnone : Items allowed (do
      expect "B" "ABI tag"
      identifier : Parser String) (fun _ _ => False) rest table [] rest table := .nil rest table
  unfold abiTags
  refine (itemsUntil_reads hnone ?_ hend).bind .pure
  exact fun _ _ _ hfalse => hfalse.elim

theorem unqualifiedPrintedName_reads {name : String} (h : Nameable name)
    (hrest : "B".toList.isPrefixOf rest = false) :
    Reads allowed (unqualifiedName r) (identifierCode name ++ rest) table
      ⟨.sourceName (properText name),{}⟩ rest table := by
  obtain ⟨c,code,hc,hcode⟩ := identifierCode_head name
  have hdigit : (identifierCode name ++ rest)[0]?.any isDigit = true := by
    rw [hcode]
    exact hc
  unfold unqualifiedName
  refine (scanned (peekIs_gives hdigit)).bind ?_
  refine (printedName_reads h rest).bind ?_
  exact (abiTags_reads _ hrest).bind .pure

theorem unqualifiedName_reads {name : String} (h : Identifier name)
    (hrest : "B".toList.isPrefixOf rest = false) :
    Reads allowed (unqualifiedName r) (identifierCode name ++ rest) table ⟨.sourceName name,{}⟩ rest
      table := by
  have hread : Reads allowed (unqualifiedName r) (identifierCode name ++ rest) table
      ⟨.sourceName (properText name),{}⟩ rest table := unqualifiedPrintedName_reads h.nameable hrest
  rwa [h.properText_eq] at hread

theorem unscopedName_reads {c : Char} {named : Named} (hc : isWordStart c = true)
    (h : Reads allowed r.unqualifiedName (c :: rest) table named rest' table') :
    Reads allowed (unscopedName r) (c :: rest) table named rest' table' := by
  unfold unscopedName
  refine (scanned (consume_refuses (isPrefixOf_word hc rfl))).bind ?_
  refine (scanned (consume_refuses (isPrefixOf_word hc rfl))).bind ?_
  exact h.bind .pure

/-- A name that starts with no capital letter stands in no scope. -/
theorem name_of_word {c : Char} (hc : isWordStart c = true) {named : Named}
    (h : Reads allowed (do
      let named ← unscopedName r
      if ← lookingAt "I" then
        remember named.node
        return {
          node := .templateName named.node (← r.templateArgs)
          traits := { named.traits with endsWithTemplateArgs := true } }
      else return named) (c :: rest) table named rest' table') :
    Reads allowed (name r) (c :: rest) table named rest' table' := by
  unfold name
  refine (scanned (lookingAt_gives (isPrefixOf_word hc rfl))).bind ?_
  refine (scanned (lookingAt_gives (isPrefixOf_word hc rfl))).bind ?_
  refine (scanned (lookingAt_gives (isPrefixOf_word hc rfl))).bind ?_
  exact h

theorem name_reads {c : Char} {named : Named} (hc : isWordStart c = true)
    (hrest : "I".toList.isPrefixOf rest' = false)
    (h : Reads allowed r.unqualifiedName (c :: rest) table named rest' table') :
    Reads allowed (Grammar.name r) (c :: rest) table named rest' table' := by
  refine name_of_word hc ((unscopedName_reads hc h).bind ?_)
  exact (scanned (lookingAt_gives hrest)).bind .pure

theorem templateName_reads {c : Char} {named : Named} {arguments : List Node}
    (hc : isWordStart c = true)
    (h : Reads allowed r.unqualifiedName (c :: rest) table named ('I' :: rest') table')
    (harguments : Reads allowed r.templateArgs ('I' :: rest') (table'.append named.node) arguments
      rest'' table'') :
    Reads allowed (Grammar.name r) (c :: rest) table
      ⟨.templateName named.node arguments,{ named.traits with endsWithTemplateArgs := true }⟩ rest''
      table'' := by
  refine name_of_word hc ((unscopedName_reads hc h).bind ?_)
  refine (scanned (lookingAt_gives rfl)).bind ((remember_reads _).bind ?_)
  exact harguments.bind .pure

/-- What a type can start with, among what is spelled: no declaration of a vendor starts it, `v` is
`void` itself, and a reference is no end of a function type. -/
def Opens (node : Node) : List Char → Prop
  | [] => False
  | c :: rest => isTypeStart c = true ∧ c ≠ 'U' ∧ (c = 'v' → node = .builtinType .void) ∧
      (c = 'R' ∨ c = 'O' → rest.head?.any (· != 'E') = true)

theorem Opens.ne_nil {node : Node} {text : List Char} (h : Opens node text) : text ≠ [] := by
  rintro rfl
  exact h

theorem Opens.append {node : Node} {text : List Char} (h : Opens node text) (rest : List Char) :
    Opens node (text ++ rest) := by
  cases text with
  | nil => exact h.elim
  | cons c text =>
    obtain ⟨hstart,hvendor,hvoid,hreference⟩ := h
    refine ⟨hstart,hvendor,hvoid,fun hc => ?_⟩
    have htext := hreference hc
    cases text with
    | nil => cases htext
    | cons d text => exact htext

theorem Opens.head_ne {node : Node} {c x : Char} {rest : List Char} (h : Opens node (c :: rest))
    (hx : isTypeStart x = false) : c ≠ x := ne_of_class h.1 hx

theorem Opens.closed {node : Node} {rest : List Char} (h : Opens node rest) : Closed rest := by
  cases rest with
  | nil => exact h.elim
  | cons c rest => exact closed_of_head ⟨h.head_ne rfl,h.head_ne rfl⟩

theorem templateArg_reads {node : Node} (hopens : Opens node rest)
    (h : Reads allowed r.type rest table node rest' table') :
    Reads allowed (templateArg r) rest table node rest' table' := by
  cases rest with
  | nil => exact hopens.elim
  | cons c rest =>
    unfold templateArg
    refine (scanned (peek_gives 0)).bind ?_
    split
    · rename_i hx
      exact absurd (Option.some.inj hx) (hopens.head_ne rfl)
    · rename_i hx
      exact absurd (Option.some.inj hx) (hopens.head_ne rfl)
    · rename_i hx
      exact absurd (Option.some.inj hx) (hopens.head_ne rfl)
    · rename_i hx
      exact absurd (Option.some.inj hx) (hopens.head_ne rfl)
    · exact h

theorem Opens.head_ne_end {node : Node} {rest : List Char} (h : Opens node rest) :
    rest.head? ≠ some 'E' := by
  cases rest with
  | nil => exact h.elim
  | cons c rest =>
    rintro ⟨⟩
    exact h.head_ne rfl rfl

theorem templateArgs_reads {arguments : List Node} {opens : Node → List Char → Prop}
    (h : Items true r.templateArg opens rest table arguments ('E' :: rest') table')
    (hopens : ∀ node rest, opens node rest → rest.head? ≠ some 'E') :
    Reads allowed (templateArgs r) ('I' :: rest) table arguments rest' table' := by
  unfold templateArgs
  refine (scanned (expect_gives "I" _ rest)).bind ?_
  exact allowingTemplateArgs_reads (itemsToE_reads h hopens)

/-- A component is remembered unless it completes the name. -/
theorem component_reads {scope : Option Node} {traits : NameTraits} {named : Named}
    (hstart : ∀ literal ∈ ["E","L","M","S"], literal.toList.isPrefixOf rest = false)
    (h : Reads allowed (nestedComponent r scope traits) rest table named rest' table')
      {complete : Bool}
    (hcomplete : "E".toList.isPrefixOf rest' = complete) :
    Reads allowed (nestedRound r (scope,traits)) rest table
      (.again (some named.node,named.traits)) rest'
      (if complete then table' else table'.append named.node) := by
  unfold nestedRound
  refine here_then fun _ _ => (scanned (consume_refuses (hstart "E" (by simp)))).bind ?_
  refine (scanned (consume_refuses (hstart "L" (by simp)))).bind (here_then fun _ _ => ?_)
  refine (scanned (consume_refuses (hstart "M" (by simp)))).bind ?_
  refine (scanned (lookingAt_gives (hstart "S" (by simp)))).bind (h.bind ?_)
  refine (scanned (lookingAt_gives hcomplete)).bind ?_
  cases complete with
  | true => exact .pure
  | false => exact (remember_reads _).bind .pure

theorem componentName_reads {scope : Option Node} {traits : NameTraits} {c : Char} {named : Named}
    (hc : isWordStart c = true)
    (h : Reads allowed r.unqualifiedName (c :: rest) table named rest' table') :
    Reads allowed (nestedComponent r scope traits) (c :: rest) table
      ⟨join scope named.node,{ traits with
        endsWithTemplateArgs := false
        ctorDtorConversion := traits.ctorDtorConversion || named.traits.ctorDtorConversion }⟩
      rest' table' := by
  unfold nestedComponent
  refine (scanned (peek_gives 0)).bind ?_
  split
  · rename_i hx
    exact absurd (Option.some.inj hx) (ne_of_class hc rfl)
  · rename_i hx
    exact absurd (Option.some.inj hx) (ne_of_class hc rfl)
  · rename_i hx
    exact absurd (Option.some.inj hx) (ne_of_class hc rfl)
  · rename_i hx
    exact absurd (Option.some.inj hx) (ne_of_class hc rfl)
  · exact h.bind .pure

theorem componentArgs_reads {scope : Node} {traits : NameTraits} {arguments : List Node}
    (h : Reads allowed r.templateArgs ('I' :: rest) table arguments rest' table') :
    Reads allowed (nestedComponent r (some scope) traits) ('I' :: rest) table
      ⟨.templateName scope arguments,{ traits with endsWithTemplateArgs := true }⟩
      rest' table' := by
  unfold nestedComponent
  exact (scanned (peek_gives 0)).bind (h.bind .pure)

theorem scopeReference_reads {node : Node} {traits : NameTraits} {i : Nat}
    (h : table.entries[i]? = some node) :
    Reads allowed (nestedRound r (none,traits)) (backReference i ++ rest) table
      (.again (some node,{ traits with endsWithTemplateArgs := false })) rest table := by
  obtain ⟨text,htext⟩ : ∃ text, backReference i ++ rest = 'S' :: text := by
    cases i with
    | zero => exact ⟨_,rfl⟩
    | succ i => exact ⟨_,rfl⟩
  have hread : Reads allowed substitution (backReference i ++ rest) table node rest table :=
    substitution_reads h rest
  rw [htext] at hread ⊢
  unfold nestedRound
  refine here_then fun _ _ => (scanned (consume_refuses rfl)).bind ?_
  refine (scanned (consume_refuses rfl)).bind (here_then fun _ _ => ?_)
  refine (scanned (consume_refuses rfl)).bind ((scanned (lookingAt_gives rfl)).bind ?_)
  exact hread.bind .pure

theorem refQualifier_gives (ref : Option ReferenceKind) (hrest : ∀ c ∈ rest.head?, c ∉ ['R','O']) :
    Gives refQualifier (Cursor.At (refCode ref ++ rest)) ref (Cursor.At rest) := by
  have refused : ∀ literal ∈ ["R","O"], literal.toList.isPrefixOf rest = false := by
    cases rest with
    | nil => decide
    | cons c rest =>
      have hc : c ∉ ['R','O'] := hrest c rfl
      simp only [List.mem_cons,List.not_mem_nil,or_false,not_or] at hc
      simp [List.isPrefixOf,Ne.symm hc.1,Ne.symm hc.2]
  unfold refQualifier
  match ref with
  | none =>
    refine (consume_refuses (refused "R" (by simp))).bind ?_
    exact (consume_refuses (refused "O" (by simp))).bind .pure
  | some .lvalue => exact (consume_gives "R" rest).bind .pure
  | some .rvalue => exact (consume_refuses rfl).bind ((consume_gives "O" rest).bind .pure)

theorem nestedName_reads {node : Node} {traits : NameTraits} (cv : CvQualifiers)
    (ref : Option ReferenceKind) {c : Char} (hc : isDigit c = true ∨ c = 'S')
    (hstd : "St".toList.isPrefixOf (c :: rest) = false)
    (h : Rounds allowed (nestedRound r) (none,{ cv := cv, ref := ref }) (c :: rest) table
      (some node,traits) ('E' :: rest') table') :
    Reads allowed (nestedName r) ('N' :: (cvCode cv ++ (refCode ref ++ c :: rest))) table
      ⟨node,traits⟩ rest' table' := by
  have letters : ∀ x, (isDigit x || x == 'S') = false → c ≠ x := by
    rintro x hx rfl
    simp only [Bool.or_eq_false_iff,beq_eq_false_iff_ne] at hx
    rcases hc with hdigit | hS
    · exact absurd (hdigit.symm.trans hx.1) (by decide)
    · exact hx.2 hS
  have hcv : ∀ x ∈ (refCode ref ++ c :: rest).head?, x ∉ ['r','V','K'] := by
    match ref with
    | none =>
      rintro x ⟨rfl⟩
      simp [letters 'r' rfl,letters 'V' rfl,letters 'K' rfl]
    | some .lvalue =>
      rintro x ⟨rfl⟩
      decide
    | some .rvalue =>
      rintro x ⟨rfl⟩
      decide
  have href : ∀ x ∈ (c :: rest).head?, x ∉ ['R','O'] := by
    rintro x ⟨rfl⟩
    simp [letters 'R' rfl,letters 'O' rfl]
  unfold nestedName
  refine (scanned (expect_gives "N" _ _)).bind ?_
  refine (scanned (cvQualifiers_gives cv hcv)).bind
    ((scanned (refQualifier_gives ref href)).bind ?_)
  refine (scanned (consume_refuses hstd)).bind ?_
  refine repeatRound_reads h (here_then fun _ _ => ?_)
  exact (scanned (consume_gives "E" rest')).bind .pure

theorem name_of_nestedName {named : Named}
    (h : Reads allowed r.nestedName ('N' :: rest) table named rest' table') :
    Reads allowed (name r) ('N' :: rest) table named rest' table' := by
  unfold name
  exact (scanned (lookingAt_gives rfl)).bind h

end

end MangledNames.Grammar
