import MangledNames.Proofs.Printing.CommaRuns
import MangledNames.Proofs.Printing.Composing
set_option autoImplicit false

/-!
Names, operators and other words as items of lists.
-/

namespace MangledNames.Printing

open Edges

/-- A name without commas, that does not close what is before it and does not open what follows. -/
structure CleanName (name : String) : Prop where
  comma : ',' ∉ name.toList
  opened : StartsOpen name.toList
  closed : ∀ c ∈ name.toList.getLast?, c ∉ ['(','<','[','\x7b']

theorem CleanName.fits {name : String} (h : CleanName name) : item.Fits name.toList := by
  refine (ofText_fits h.comma).mono ?_
  have hopened : name.toList.head?.all (· ∉ [')','>',']','\x7d']) = true := by
    simpa [Option.all_eq_true,StartsOpen] using h.opened
  have hclosed : name.toList.getLast?.all (· ∉ ['(','<','[','\x7b']) = true := by
    simpa [Option.all_eq_true] using h.closed
  simp only [covers,item,ofText,hopened,hclosed]
  rfl

theorem Unmarked.fits {text : List Char} (h : Unmarked text) : item.Fits text := by
  have hclean : ∀ c ∈ text, isMark c = false := h
  refine (ofText_fits fun hcomma => absurd (h ',' hcomma) (by decide)).mono ?_
  have unmarked : ∀ {found : Option Char} {marks : List Char}, (∀ c ∈ found, isMark c = false) →
      marks.all isMark = true → found.all (· ∉ marks) = true := by
    intro found marks hfound hmarks
    rw [Option.all_eq_true]
    intro c hc
    rw [decide_eq_true_eq]
    intro hmem
    exact absurd (List.all_eq_true.mp hmarks c hmem) (by simp [hfound c hc])
  have hopened : text.head?.all (· ∉ [')','>',']','\x7d']) = true :=
    unmarked (fun c hc => h c (List.mem_of_mem_head? hc)) (by decide)
  have hclosed : text.getLast?.all (· ∉ ['(','<','[','\x7b']) = true :=
    unmarked (fun c hc => h c (List.mem_of_mem_getLast? hc)) (by decide)
  simp only [covers,item,ofText,hopened,hclosed]
  rfl

theorem fits_chars {e : Edges} {chars : List Char} {text : String} (h : text = String.ofList chars)
    (hcomma : ',' ∉ chars) (hedges : (ofText chars).covers e = true) : e.Fits text.toList := by
  rw [h,String.toList_ofList]
  exact (ofText_fits hcomma).mono hedges

theorem Edges.Fits.text_append {e f : Edges} {u v : String} (hu : e.Fits u.toList)
    (hv : f.Fits v.toList) :
    (e.append f).Fits (u ++ v).toList := by
  rw [String.toList_append]
  exact hu.append hv

theorem opening_fits {text : List Char} {mark : Char} (h : text.filter isMark = [mark])
    (hmark : mark ∉ [',',')','>',']','\x7d']) : Edges.Fits ⟨true,true,false⟩ text := by
  have hfree := free_of_marks h (by decide) hmark
  have hopened : text.head?.all (· ∉ [')','>',']','\x7d']) = true := by
    rw [Option.all_eq_true]
    exact fun c hc => decide_eq_true fun hmem => hfree c (List.mem_of_mem_head? hc) (.tail _ hmem)
  have hsolid : text.isEmpty = false := by
    cases text with
    | nil => cases h
    | cons => rfl
  refine (ofText_fits fun hcomma => hfree ',' hcomma (.head _)).mono ?_
  simp only [covers,ofText,hopened,hsolid]
  rfl

theorem closing_fits {text : List Char} {mark : Char} (h : text.filter isMark = [mark])
    (hmark : mark ∉ [',','(','<','[','\x7b']) : closer.Fits text := by
  have hfree := free_of_marks h (by decide) hmark
  have hclosed : text.getLast?.all (· ∉ ['(','<','[','\x7b']) = true := by
    rw [Option.all_eq_true]
    exact fun c hc => decide_eq_true fun hmem => hfree c (List.mem_of_mem_getLast? hc)
      (.tail _ hmem)
  have hsolid : text.isEmpty = false := by
    cases text with
    | nil => cases h
    | cons => rfl
  refine (ofText_fits fun hcomma => hfree ',' hcomma (.head _)).mono ?_
  simp only [covers,closer,ofText,hclosed,hsolid]
  rfl

theorem framed_fits {before text after : String}
    (hframe : encloses before.toList after.toList = true) (h : item.Fits text.toList) :
    whole.Fits (before ++ text ++ after).toList := by
  obtain ⟨opening,closing,hcloses,hbefore,hafter⟩ := encloses_marks hframe
  have hmarks : opening ∉ [',',')','>',']','\x7d'] ∧ closing ∉ [',','(','<','[','\x7b'] := by
    rcases closing?_cases hcloses with ⟨rfl,rfl⟩ | ⟨rfl,rfl⟩ | ⟨rfl,rfl⟩ <;> decide
  exact (((opening_fits hbefore hmarks.1).text_append h).text_append
    (closing_fits hafter hmarks.2)).mono (by decide)

theorem number_fits (number : Nat) : item.Fits (toString number).toList :=
  (unmarked_toString number).fits

/-- What the symbols of operators other than `,` end with. -/
theorem symbol_chars {operator : Operator} (h : operator ≠ .comma) :
    ∃ chars, operator.symbol = String.ofList chars ∧ ',' ∉ chars ∧ chars ≠ [] ∧
      (∀ c ∈ chars.getLast?, c ∉ ['(','[','\x7b']) ∧
      ('<' ∈ chars.getLast? → operator.isWord = false ∧ (chars = ['<'] ∨ chars = ['<','<'])) := by
  have checked : ∀ {text : String} {chars : List Char} {word : Bool}, text = String.ofList chars →
      (!chars.contains ',' && !chars.isEmpty && chars.getLast?.all (· ∉ ['(','[','\x7b']) &&
        (chars.getLast? != some '<' || !word && (chars == ['<'] || chars == ['<','<']))) = true →
      ∃ chars, text = String.ofList chars ∧ ',' ∉ chars ∧ chars ≠ [] ∧
        (∀ c ∈ chars.getLast?, c ∉ ['(','[','\x7b']) ∧
        ('<' ∈ chars.getLast? → word = false ∧ (chars = ['<'] ∨ chars = ['<','<'])) := by
    intro text chars word htext hchecked
    simp only [Bool.and_eq_true,Bool.or_eq_true,Bool.not_eq_true',bne_iff_ne,beq_iff_eq,
      List.contains_eq_mem,decide_eq_false_iff_not,List.isEmpty_eq_false_iff,Option.all_eq_true,
      decide_eq_true_eq] at hchecked
    obtain ⟨⟨⟨hcomma,hne⟩,hbracket⟩,hangle⟩ := hchecked
    exact ⟨chars,htext,hcomma,hne,hbracket,fun hlast => hangle.resolve_left (absurd hlast)⟩
  cases operator <;> first
    | exact absurd rfl h
    | exact checked rfl (by decide)

theorem operatorComma_tame : Tame "operator,".toList := by
  refine ⟨fun before after htext => ?_,fun before htext => ?_⟩
  · have hblank : ' ' ∈ "operator,".toList := by simp [htext]
    exact absurd hblank (by decide)
  · have hbefore : before = "operator,".toList.dropLast := by
      rw [htext,List.dropLast_concat]
    rw [hbefore]
    exact ⟨[],by decide⟩

/-- The name of an operator, which may end in a comma or in an angle. -/
theorem operatorName_fits (operator : Operator) :
    item.Fits (if operator.isWord then "operator " ++ operator.symbol
      else "operator" ++ operator.symbol).toList := by
  by_cases hcomma : operator = .comma
  · subst hcomma
    have hbracket : ∀ c ∈ "operator,".toList.getLast?, c ∉ ['(','[','\x7b'] := by
      intro c hc
      cases hc
      decide
    exact ⟨operatorComma_tame,fun _ => by decide,nofun,fun _ => ⟨hbracket,by decide⟩⟩
  · obtain ⟨chars,hsymbol,hplain,hne,hbracket,hangle⟩ := symbol_chars hcomma
    have named : ∀ {first : String}, ',' ∉ first.toList → StartsOpen first.toList → first ≠ "" →
        (operator.isWord = false → first = "operator") →
        item.Fits (first ++ operator.symbol).toList := by
      intro first hfirst hopened hshown hword
      rw [String.toList_append,hsymbol,String.toList_ofList]
      have hlast : (first.toList ++ chars).getLast? = chars.getLast? :=
        List.getLast?_append_of_ne_nil first.toList hne
      refine ⟨(ofText_fits (by simp [hfirst,hplain])).tame,fun _ =>
        hopened.append fun hnone => ?_,nofun,
        fun _ => ⟨?_,fun hends => ?_⟩⟩
      · exact absurd hnone (by simpa using hshown)
      · rw [hlast]
        exact hbracket
      · rw [hlast] at hends
        obtain ⟨hnoword,hchars⟩ := hangle hends
        rw [hword hnoword]
        rcases hchars with rfl | rfl
        · exact .inl ⟨[],by decide⟩
        · exact .inr ⟨[],by decide⟩
    cases hword : operator.isWord with
    | true =>
      exact named (by decide) (by decide) (by decide) fun hnoword =>
        absurd (hword.symm.trans hnoword) (by decide)
    | false => exact named (by decide) (by decide) (by decide) fun _ => rfl

theorem joined_fits {u v : String} (hu : item.Fits u.toList) (hv : item.Fits v.toList)
    (hune : u ≠ "") (hvne : v ≠ "") : item.Fits (u ++ (", " ++ v)).toList := by
  rw [String.toList_append,String.toList_append]
  exact hu.join hv (by simpa using hune) (by simpa using hvne)

theorem listed_fits {text : String} (texts : List String) (htext : text = ", ".intercalate texts)
    (h : (texts.all fun text =>
      !text.toList.contains ',' && (ofText text.toList).covers whole) = true) :
    item.Fits text.toList := by
  have parts : ∀ text ∈ texts, whole.Fits text.toList := by
    intro text hmem
    have htext := List.all_eq_true.mp h text hmem
    simp only [Bool.and_eq_true,Bool.not_eq_true',List.contains_eq_mem,
      decide_eq_false_iff_not] at htext
    exact (ofText_fits htext.1).mono htext.2
  rw [htext]
  refine intercalate_induction .empty joined_fits (fun text hmem =>
    (parts text hmem).mono (by decide))
    fun text hmem => ?_
  simpa using (parts text hmem).solid rfl

theorem expandedText_fits (name : StandardName) (spaced : Bool) :
    item.Fits (name.expandedText spaced).toList := by
  cases name with
  | allocator => exact listed_fits ["std::allocator"] rfl (by decide)
  | basicString => exact listed_fits ["std::basic_string"] rfl (by decide)
  | string =>
    cases spaced with
    | true =>
      exact listed_fits ["std::basic_string<char","std::char_traits<char>","std::allocator<char> >"]
        rfl (by decide)
    | false =>
      exact listed_fits ["std::basic_string<char","std::char_traits<char>","std::allocator<char>>"]
        rfl (by decide)
  | istream =>
    cases spaced with
    | true =>
      exact listed_fits ["std::basic_istream<char","std::char_traits<char> >"] rfl (by decide)
    | false =>
      exact listed_fits ["std::basic_istream<char","std::char_traits<char>>"] rfl (by decide)
  | ostream =>
    cases spaced with
    | true =>
      exact listed_fits ["std::basic_ostream<char","std::char_traits<char> >"] rfl (by decide)
    | false =>
      exact listed_fits ["std::basic_ostream<char","std::char_traits<char>>"] rfl (by decide)
  | iostream =>
    cases spaced with
    | true =>
      exact listed_fits ["std::basic_iostream<char","std::char_traits<char> >"] rfl (by decide)
    | false =>
      exact listed_fits ["std::basic_iostream<char","std::char_traits<char>>"] rfl (by decide)

theorem symbol_fits {operator : Operator}
    (h : operator.kind = .prefixOp ∨ operator.kind = .postfixOp) :
    whole.Fits operator.symbol.toList := by
  revert h
  cases operator <;> first
    | exact fun _ => fits_chars rfl (by decide) (by decide)
    | exact fun h => absurd h (by decide)

/-- Two operands in parentheses. The operator `,` has a space on either side, and so a comma in
it. -/
theorem operationText_fits (operator : Operator) {left right : String}
    (hleft : item.Fits left.toList) (hright : item.Fits right.toList) :
    item.Fits (operationText operator left right).toList := by
  have hl : whole.Fits ("(" ++ left ++ ")").toList := framed_fits (by decide) hleft
  have hr : whole.Fits ("(" ++ right ++ ")").toList := framed_fits (by decide) hright
  by_cases hcomma : operator = .comma
  · subst hcomma
    have hspaced : whole.Fits ("(" ++ left ++ ")" ++ " ").toList :=
      (hl.text_append (ofText_fits (by decide))).mono (by decide)
    have hsplit : operationText .comma left right =
        "(" ++ left ++ ")" ++ " " ++ (", " ++ ("(" ++ right ++ ")")) := by
      have hsymbol : (" " ++ Operator.comma.symbol ++ " " : String) = " " ++ ", " := rfl
      rw [operationText,hsymbol]
      simp only [String.append_assoc]
    rw [hsplit]
    exact joined_fits (hspaced.mono (by decide)) (hr.mono (by decide)) (by simp) (by simp)
  · obtain ⟨chars,hsymbol,hplain,_⟩ := symbol_chars hcomma
    have hspaced : whole.Fits (" " ++ operator.symbol ++ " ").toList := by
      have hchars :
        (" " ++ operator.symbol ++ " ").toList = ' ' :: (chars ++ [' ']) := by simp [hsymbol]
      rw [hchars]
      refine (ofText_fits (by simp [hplain])).mono ?_
      rw [ofText,← List.cons_append,List.getLast?_concat]
      rfl
    exact ((hl.text_append hspaced).text_append hr).mono (by decide)

/-- Texts that may stand in a list, where they show anything. -/
def items (spaced : Bool) : TextInvariant spaced where
  Fits text := item.Fits text.toList
  append hu hv := (hu.text_append hv).mono (by decide)
  unmarked := Unmarked.fits
  framed hframe h := (framed_fits hframe h).mono (by decide)
  join := joined_fits
  arguments h := ((((ofText_fits (by decide)).text_append h).text_append
    (unmarked_argumentsGap _ _).fits).text_append (ofText_fits (by decide))).mono (by decide)
  Closable text := item.Fits text.toList
  angled hbefore h :=
    (((opening_fits (beq_iff_eq.mp hbefore) (by decide)).text_append h).text_append
    (ofText_fits (by decide))).mono (by decide)
  operatorName := operatorName_fits
  symbol h := (symbol_fits h).mono (by decide)
  access access := by cases access <;> exact (ofText_fits (by decide)).mono (by decide)
  operation := operationText_fits
  expandedText name := expandedText_fits name spaced

end MangledNames.Printing
