set_option autoImplicit false

/-!
A text as words and marks. Blanks only keep words apart.
-/

namespace MangledNames.Printing

inductive Token where
  | word (text : List Char)
  | mark (sign : Char)
  deriving DecidableEq

/-- Words are names with the `::` behind them, numbers, and `...`. -/
def isWordChar (c : Char) : Bool := c.isAlphanum || c == '_' || c == ':' || c == '.'

def ended (word : List Char) : List Token := if word = [] then [] else [.word word]

/-- The tokens of a text that goes on with the word before it. -/
def tokensAfter (word : List Char) : List Char → List Token
  | [] => ended word
  | c :: text =>
    if isWordChar c then tokensAfter (word ++ [c]) text
    else if c = ' ' then ended word ++ tokensAfter [] text
    else ended word ++ .mark c :: tokensAfter [] text

def tokens (text : List Char) : List Token := tokensAfter [] text

/-- A text that does not go on with the word before it. -/
def Breaks (text : List Char) : Prop := text.head?.any isWordChar = false

instance (text : List Char) : Decidable (Breaks text) :=
  inferInstanceAs (Decidable (text.head?.any isWordChar = false))

theorem tokensAfter_append {word text rest : List Char} (h : Breaks rest) :
    tokensAfter word (text ++ rest) = tokensAfter word text ++ tokens rest := by
  induction text generalizing word with
  | nil =>
    cases rest with
    | nil => simp [tokens,tokensAfter,ended]
    | cons c rest =>
      have hc : isWordChar c = false := h
      simp only [List.nil_append,tokens,tokensAfter,hc,ended,reduceIte,Bool.false_eq_true]
      split <;> rfl
  | cons c text ih =>
    simp only [List.cons_append,tokensAfter,ih]
    split
    · rfl
    · split <;> simp

theorem tokens_append {text rest : List Char} (h : Breaks rest) :
    tokens (text ++ rest) = tokens text ++ tokens rest := tokensAfter_append h

theorem tokens_word {word : List Char} (h : word.all isWordChar = true) (hne : word ≠ []) :
    tokens word = [.word word] := by
  have after : ∀ before text : List Char, text.all isWordChar = true →
      tokensAfter before text = ended (before ++ text) := by
    intro before text htext
    induction text generalizing before with
    | nil => simp [tokensAfter]
    | cons c text ih =>
      simp only [List.all_cons,Bool.and_eq_true] at htext
      simp [tokensAfter,htext.1,ih _ htext.2]
  rw [tokens,after [] word h,List.nil_append,ended,if_neg hne]

theorem breaks_append {a b : List Char} (ha : Breaks a) (hb : Breaks b) : Breaks (a ++ b) := by
  cases a with
  | nil => exact hb
  | cons c a => exact ha

/-- A text without words is apart from any text behind it. -/
theorem tokens_marks_append {marks : List Char} (h : marks.any isWordChar = false)
    (rest : List Char) :
    tokens (marks ++ rest) = tokens marks ++ tokens rest := by
  induction marks with
  | nil => simp [tokens,tokensAfter,ended]
  | cons c marks ih =>
    simp only [List.any_cons,Bool.or_eq_false_iff] at h
    have hrest := ih h.2
    simp only [tokens] at hrest
    simp only [tokens,tokensAfter,List.cons_append,h.1,hrest,Bool.false_eq_true,if_false]
    split <;> simp

end MangledNames.Printing
