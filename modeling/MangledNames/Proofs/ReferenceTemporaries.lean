import MangledNames.Proofs.Grammar.Outcomes
import MangledNames.Proofs.WholeSymbol
import MangledNames.Symbol
set_option autoImplicit false

/-!
The numbers of reference temporaries. They follow a name without a separator, so the name takes
letters for its own that may continue one.
-/

namespace MangledNames

open Cursor Grammar

/-- Nothing for the first temporary, then the numbers from zero on in base 36. -/
def temporaryCode : Nat → List Char
  | 0 => []
  | n + 1 => spelled 36 n

def temporaryText (name : String) (n : Nat) : List Char :=
  'G' :: 'R' :: (identifierCode name ++ (temporaryCode n ++ ['_']))

def temporaryTree (name : Node) (n : Nat) : Node := .mangledName (.referenceTemporary name n) none

namespace Grammar

section
variable {allowed : Bool} {r : Rules} {rest more : List Char}
  {table table' : Substitutions} {name : String} {n k : Nat}

theorem referenceTemporary_reads {named : Named}
    (h : Reads allowed r.name rest table named (temporaryCode n ++ ['_']) table') :
    Reads allowed (referenceTemporary r) rest table (.referenceTemporary named.node n)
      [] table' := by
  unfold referenceTemporary
  refine h.bind ?_
  cases n with
  | zero => exact (scanned (consume_gives "_" [])).bind .pure
  | succ n =>
    refine (scanned (consume_refuses (spelled_no_end 36 n (by decide) (by decide) _))).bind ?_
    refine (scanned (seqId_gives _ n [])).bind ?_
    exact (scanned (expect_gives "_" _ [])).bind .pure

theorem temporaryText_reads (hname : Nameable name) (hclosed : Closed (temporaryCode n ++ ['_'])) :
    Reads true (wholeSymbol (Rules.levels (k + 4))) (temporaryText name n) {}
      (temporaryTree (.sourceName (properText name)) n) [] {} := by
  have hunqualified : Reads true (Rules.levels (k + 1)).unqualifiedName
      (identifierCode name ++ (temporaryCode n ++ ['_'])) {} ⟨.sourceName (properText name),{}⟩
      (temporaryCode n ++ ['_']) {} :=
    nested_reads (unqualifiedPrintedName_reads hname hclosed.tags)
  have hread : Reads true (Rules.levels (k + 2)).name
      (identifierCode name ++ (temporaryCode n ++ ['_'])) {} ⟨.sourceName (properText name),{}⟩
      (temporaryCode n ++ ['_']) {} := by
    obtain ⟨c,code,hc,hcode⟩ := identifierCode_head name
    rw [hcode] at hunqualified ⊢
    exact nested_reads (name_reads (isWordStart_digit hc) hclosed.arguments hunqualified)
  have hspecial : Reads true (Rules.levels (k + 3)).specialName (temporaryText name n) {}
      (.referenceTemporary (.sourceName (properText name)) n) [] {} := by
    refine nested_reads ?_
    unfold specialName
    exact (scanned (consume_gives "GR" _)).bind (referenceTemporary_reads hread)
  refine wholeSymbol_of_encoding (nested_reads ?_)
  unfold encoding
  exact (scanned (peekIs_gives rfl)).bind hspecial

/-! What the name takes for its own. -/

def Continued (node : Node) : Prop := ∀ text, node ≠ .sourceName text

theorem abiTags_yields (node : Node) :
    Yields (abiTags node) (At allowed ('B' :: more) table) Continued := by
  have hend :
      Reads allowed (return !(← lookingAt "B")) ('B' :: more) table false ('B' :: more) table :=
    (scanned (lookingAt_gives rfl)).bind .pure
  unfold abiTags
  refine (itemsUntil_yields hend).bind fun tags htags => ?_
  rw [if_neg (by simpa using htags)]
  unfold build
  exact .ite (fun _ => .pure fun _ => Node.noConfusion) fun _ => .throw

theorem unqualifiedName_yields (hname : Nameable name) :
    Yields (unqualifiedName r) (At allowed (identifierCode name ++ 'B' :: more) table)
      fun named => Continued named.node := by
  obtain ⟨c,code,hc,hcode⟩ := identifierCode_head name
  have hdigit : (identifierCode name ++ 'B' :: more)[0]?.any isDigit = true := by
    rw [hcode]
    exact hc
  unfold unqualifiedName
  refine (scanned (peekIs_gives hdigit)).yields ?_
  refine (printedName_reads hname _).yields ?_
  exact (abiTags_yields _).bind fun node hnode => .pure hnode

/-- Behind a tag or with template arguments the name is no longer the identifier. -/
theorem name_yields (hname : Nameable name) {c : Char} (hc : c = 'B' ∨ c = 'I') :
    Yields (Grammar.name (Rules.levels (k + 1)))
        (At allowed (identifierCode name ++ c :: more) table)
      fun named => Continued named.node := by
  obtain ⟨d,code,hd,hcode⟩ := identifierCode_head name
  have hword := isWordStart_digit hd
  have hscope : ∀ literal ∈ ["N","Z","S","St","L"],
      literal.toList.isPrefixOf (identifierCode name ++ c :: more) = false := by
    intro literal hliteral
    rw [hcode]
    refine isPrefixOf_word hword ?_
    revert literal
    decide
  unfold Grammar.name
  refine (scanned (lookingAt_gives (hscope "N" (by simp)))).yields ?_
  refine (scanned (lookingAt_gives (hscope "Z" (by simp)))).yields ?_
  refine (scanned (lookingAt_gives (hscope "S" (by simp)))).yields ?_
  rcases hc with rfl | rfl
  · have hunscoped : Yields (unscopedName (Rules.levels (k + 1)))
        (At allowed (identifierCode name ++ 'B' :: more) table) fun named =>
        Continued named.node := by
      unfold unscopedName
      refine (scanned (consume_refuses (hscope "St" (by simp)))).yields ?_
      refine (scanned (consume_refuses (hscope "L" (by simp)))).yields ?_
      refine Yields.bind (nested_yields (unqualifiedName_yields hname) fun _ => At.deeper) ?_
      exact fun named hnamed => .pure hnamed
    refine hunscoped.bind fun named hnamed => .bind .any fun found _ =>
      .ite (fun _ => ?_) fun _ => ?_
    · exact .bind .any fun _ _ => .bind .any fun _ _ => .pure fun _ => Node.noConfusion
    · exact .pure hnamed
  · have hunscoped : Reads allowed (unscopedName (Rules.levels (k + 1)))
        (identifierCode name ++ 'I' :: more) table ⟨.sourceName (properText name),{}⟩ ('I' :: more)
        table := by
      have hunqualified : Reads allowed (Rules.levels (k + 1)).unqualifiedName
          (identifierCode name ++ 'I' :: more) table
            ⟨.sourceName (properText name),{}⟩ ('I' :: more)
          table := nested_reads (unqualifiedPrintedName_reads hname rfl)
      rw [hcode] at hunqualified ⊢
      exact unscopedName_reads hword hunqualified
    refine hunscoped.yields ((scanned (lookingAt_gives rfl)).yields ?_)
    exact .bind .any fun _ _ => .bind .any fun _ _ => .pure fun _ => Node.noConfusion

theorem temporaryText_yields (hname : Nameable name) {c : Char} (hc : c = 'B' ∨ c = 'I') :
    Yields (wholeSymbol (Rules.levels (k + 4)))
      (OffTrial true ('G' :: 'R' :: (identifierCode name ++ c :: more)) {})
      fun tree => ∀ text m, tree ≠ temporaryTree (.sourceName text) m := by
  have htemporary : Yields (referenceTemporary (Rules.levels (k + 2)))
      (At true (identifierCode name ++ c :: more) {})
      fun node => ∀ text m, node ≠ .referenceTemporary (.sourceName text) m := by
    have apart : ∀ {named : Named} {m : Nat}, Continued named.node → ∀ text k,
        Node.referenceTemporary named.node m ≠ .referenceTemporary (.sourceName text) k := by
      intro named m hnamed text k hsame
      exact hnamed text (Node.referenceTemporary.inj hsame).1
    unfold referenceTemporary
    refine Yields.bind (nested_yields (name_yields hname hc) fun _ => At.deeper)
      fun named hnamed => ?_
    refine .bind .any fun found _ => .ite (fun _ => .pure (apart hnamed)) fun _ => ?_
    exact .bind .any fun number _ => .bind .any fun _ _ => .pure (apart hnamed)
  have hspecial : Yields (specialName (Rules.levels (k + 2)))
      (At true ('G' :: 'R' :: (identifierCode name ++ c :: more)) {})
      fun node => ∀ text m, node ≠ .referenceTemporary (.sourceName text) m := by
    unfold specialName
    exact (scanned (consume_gives "GR" _)).yields htemporary
  have hencoding : Yields (encoding (Rules.levels (k + 3)))
      (At true ('G' :: 'R' :: (identifierCode name ++ c :: more)) {})
      fun node => ∀ text m, node ≠ .referenceTemporary (.sourceName text) m := by
    unfold encoding
    exact (scanned (peekIs_gives rfl)).yields (nested_yields hspecial fun _ => At.deeper)
  refine wholeSymbol_yields (nested_yields hencoding fun _ hc => hc.toAt.deeper) ?_
  exact fun node marks hnode text m hsame => hnode text m (Node.mangledName.inj hsame).1

end

end Grammar

/-- Whether the number begins with a letter that the name takes for its own: `B` for a tag, `I` for
template arguments. -/
def TemporaryMerges (n : Nat) : Prop :=
  ∃ c more, temporaryCode n ++ ['_'] = c :: more ∧ (c = 'B' ∨ c = 'I')

theorem closed_of_not_merges {n : Nat} (h : ¬TemporaryMerges n) :
    Closed (temporaryCode n ++ ['_']) := by
  cases hcode : temporaryCode n ++ ['_'] with
  | nil => exact absurd hcode (by simp)
  | cons c more =>
    refine closed_of_head ⟨?_,?_⟩
    · exact fun hI => h ⟨c,more,hcode,.inr hI⟩
    · exact fun hB => h ⟨c,more,hcode,.inl hB⟩

/-- Every number that begins neither with `B` nor with `I` is read back, and smaller limits only cut
the reading off. No other number is. -/
theorem reference_temporaries_are_read_back (name : String) (hname : Nameable name) (n : Nat)
    (config : Config) :
    (¬TemporaryMerges n →
      ((marked (temporaryText name n)).length ≤ config.inputSizeLimit → 4 ≤ config.recursionLimit →
        Symbol.parse (marked (temporaryText name n)) config = .ok ⟨marked (temporaryText name n),
          temporaryTree (.sourceName (properText name)) n,{}⟩) ∧
      ((∃ e, Symbol.parse (marked (temporaryText name n)) config = .error (.error e) ∧
          e.category = .limit) ∨
        Symbol.parse (marked (temporaryText name n)) config = .ok ⟨marked (temporaryText name n),
          temporaryTree (.sourceName (properText name)) n,{}⟩)) ∧
    (TemporaryMerges n →
      ∀ symbol, Symbol.parse (marked (temporaryText name n)) config = .ok symbol →
      ∀ text m, symbol.tree ≠ temporaryTree (.sourceName text) m) := by
  refine ⟨fun happart => ⟨fun hsize hlevels => ?_,?_⟩,fun ⟨c,more,hcode,hc⟩ symbol hparse => ?_⟩
  · obtain ⟨k,hk⟩ := Nat.exists_eq_add_of_le' hlevels
    refine parse_marked hsize ?_
    rw [hk]
    exact temporaryText_reads hname (closed_of_not_merges happart)
  · rcases parse_marked_upToLimits (Nat.le_add_right config.recursionLimit 4)
      (temporaryText_reads hname (closed_of_not_merges happart)) with ⟨_,hcut,e,rfl,he⟩ | hsame
    · exact .inl ⟨e,hcut,he⟩
    · exact .inr hsame
  · have hyields : Yields (wholeSymbol (Rules.levels (config.recursionLimit + 4)))
        (OffTrial true ('G' :: 'R' :: (identifierCode name ++ c :: more)) {})
        fun tree => ∀ text m, tree ≠ temporaryTree (.sourceName text) m :=
          temporaryText_yields hname hc
    rw [← hcode] at hyields
    exact parse_marked_yields (Nat.le_add_right config.recursionLimit 4) hyields hparse

theorem marked_temporaryText_x {n : Nat} {code : List Char} (h : temporaryCode n = code) :
    marked (temporaryText "x" n) =
      String.ofList ('_' :: 'Z' :: 'G' :: 'R' :: '1' :: 'x' :: (code ++ ['_'])) := by
  have hone : spelled 10 1 = ['1'] := by simp [spelled,digitChar]
  change String.ofList
    ('_' :: 'Z' :: 'G' :: 'R' :: (spelled 10 1 ++ _ ++ (temporaryCode n ++ _))) = _
  rw [hone,h]
  rfl

/-- `_ZGR1xA_` is read, and `_ZGR1xB_` is not. -/
theorem reference_temporaries_are_read_back_letters :
    Nameable "x" ∧
    Symbol.parse "_ZGR1xA_" .standard = .ok ⟨"_ZGR1xA_",temporaryTree (.sourceName "x") 11,{}⟩ ∧
    ∀ symbol, Symbol.parse "_ZGR1xB_" .standard = .ok symbol →
      ∀ text m, symbol.tree ≠ temporaryTree (.sourceName text) m := by
  have hx : Nameable "x" := ⟨by decide,rfl,by decide⟩
  have hA : temporaryCode 11 = ['A'] := by simp [temporaryCode,spelled,digitChar]
  have hB : temporaryCode 12 = ['B'] := by simp [temporaryCode,spelled,digitChar]
  have happart : ¬TemporaryMerges 11 := by
    rintro ⟨c,more,hcode,hc⟩
    rw [hA] at hcode
    cases hcode
    revert hc
    decide
  have hmerges : TemporaryMerges 12 := ⟨'B',['_'],by rw [hB]; rfl,.inl rfl⟩
  have hread := (reference_temporaries_are_read_back "x" hx 11 .standard).1 happart
  have hother := (reference_temporaries_are_read_back "x" hx 12 .standard).2 hmerges
  rw [marked_temporaryText_x hA] at hread
  rw [marked_temporaryText_x hB] at hother
  exact ⟨hx,hread.1 (by decide) (by decide),hother⟩

/-- The twelfth temporary behind the first has a `B` for its number, which is taken for a tag. -/
theorem numbers_may_begin_like_tags :
    ¬∀ name, Nameable name → ∀ n config,
      (∃ e, Symbol.parse (marked (temporaryText name n)) config = .error (.error e) ∧
        e.category = .limit) ∨
      ∃ table, Symbol.parse (marked (temporaryText name n)) config = .ok
        ⟨marked (temporaryText name n),
        temporaryTree (.sourceName (properText name)) n,table⟩ := by
  intro h
  have hB : temporaryCode 12 = ['B'] := by simp [temporaryCode,spelled,digitChar]
  have hsymbol : marked (temporaryText "x" 12) = "_ZGR1xB_" := marked_temporaryText_x hB
  have hfails : (Symbol.parse "_ZGR1xB_" .standard).map (fun _ => ()) =
      .error (.error (.unexpectedToken "identifier length" 7 "_")) := by decide +kernel
  have hparse := h "x" ⟨by decide,rfl,by decide⟩ 12 .standard
  rw [hsymbol] at hparse
  rcases hparse with ⟨e,hparse,he⟩ | ⟨table,hparse⟩
  · rw [hparse] at hfails
    cases hfails
    cases he
  · rw [hparse] at hfails
    cases hfails

end MangledNames
