import MangledNames.Proofs.Printing.Brackets
set_option autoImplicit false

/-!
Texts without brackets and commas: numbers, hexadecimal fractions, and what becomes of them in upper
case.
-/

namespace MangledNames.Printing

theorem bracket_cases {c : Char} (h : isBracket c = true) :
    c = '(' ∨ c = '[' ∨ c = '\x7b' ∨ c = ')' ∨ c = ']' ∨ c = '\x7d' := by
  simp only [isBracket,isClosing,Bool.or_eq_true,beq_iff_eq] at h
  rcases h with hopening | (rfl | rfl) | rfl
  · unfold closing? at hopening
    split at hopening
    · exact .inl rfl
    · exact .inr (.inl rfl)
    · exact .inr (.inr (.inl rfl))
    · cases hopening
  · simp
  · simp
  · simp

/-- What structures a text. -/
def isMark (c : Char) : Bool := isBracket c || c == '<' || c == '>' || c == ','

def Unmarked (text : List Char) : Prop := ∀ c ∈ text, isMark c = false

instance (text : List Char) : Decidable (Unmarked text) :=
  decidable_of_iff (text.any isMark = false) (by simp [Unmarked])

theorem mark_cases {c : Char} (h : isMark c = true) :
    c ∈ ['(','[','\x7b',')',']','\x7d','<','>',','] := by
  simp only [isMark,Bool.or_eq_true,beq_iff_eq] at h
  rcases h with ((hbracket | rfl) | rfl) | rfl
  · rcases bracket_cases hbracket with rfl | rfl | rfl | rfl | rfl | rfl <;> simp
  · simp
  · simp
  · simp

theorem not_isMark_of_class {ofClass : Char → Bool} {c : Char} (h : ofClass c = true)
    (hnone : ['(','[','\x7b',')',']','\x7d','<','>',','].any ofClass = false) :
    isMark c = false := by
  cases hc : isMark c with
  | false => rfl
  | true => exact absurd h (List.any_eq_false.mp hnone c (mark_cases hc))

theorem Unmarked.bare {text : List Char} (h : Unmarked text) : Bare text := by
  intro c hc
  have hmark := h c hc
  simp only [isMark,Bool.or_eq_false_iff] at hmark
  exact hmark.1.1.1

theorem bare_append {text text' : String} (h : Bare text.toList) (h' : Bare text'.toList) :
    Bare (text ++ text').toList := by
  intro c hc
  rw [String.toList_append,List.mem_append] at hc
  exact hc.elim (h c) (h' c)

theorem unmarked_append {text text' : String} (h : Unmarked text.toList)
    (h' : Unmarked text'.toList) :
    Unmarked (text ++ text').toList := by
  intro c hc
  rw [String.toList_append,List.mem_append] at hc
  exact hc.elim (h c) (h' c)

theorem unmarked_digits (n : Nat) : Unmarked (Nat.toDigits 10 n) := fun c hc =>
  not_isMark_of_class (Nat.isDigit_of_mem_toDigits (by decide) (by decide) hc) (by decide)

theorem unmarked_toString (n : Nat) : Unmarked (toString n).toList := by
  change Unmarked n.repr.toList
  rw [Nat.toList_repr]
  exact unmarked_digits n

/-- Only some of the first characters have another case. -/
theorem not_isMark_otherCase {c : Char} (h : isMark c = false) :
    isMark c.toUpper = false ∧ isMark c.toLower = false := by
  by_cases hc : c.toNat < 128
  · have hfirst : ∀ n < 128, isMark (Char.ofNat n) = false →
        isMark (Char.ofNat n).toUpper = false ∧ isMark (Char.ofNat n).toLower = false := by decide
    have hcased := hfirst c.toNat hc
    rw [Char.ofNat_toNat] at hcased
    exact hcased h
  · have above : ∀ bound : Char, bound.toNat < 128 → ¬c.val ≤ bound.val := by
      intro bound hbound hle
      have hle : c.toNat ≤ bound.toNat := hle
      omega
    have hupper : c.toUpper = c := dif_neg fun hz => above 'z' (by decide) hz.2
    have hlower : c.toLower = c := dif_neg fun hz => above 'Z' (by decide) hz.2
    rw [hupper,hlower]
    exact ⟨h,h⟩

theorem unmarked_cased (config : Config) {text : String} (h : Unmarked text.toList) :
    Unmarked (cased config text).toList := by
  unfold cased
  split
  · exact h
  · intro c hc
    rw [String.toList_map] at hc
    obtain ⟨x,hx,rfl⟩ := List.mem_map.mp hc
    exact (not_isMark_otherCase (h x hx)).1

section
open HexFloat

theorem unmarked_cons {c : Char} {text : List Char} (hc : isMark c = false) (h : Unmarked text) :
    Unmarked (c :: text) := List.forall_mem_cons.mpr ⟨hc,h⟩

theorem unmarked_hexDigitsOf (width n : Nat) : Unmarked (hexDigitsOf width n) := by
  induction width generalizing n with
  | zero => exact nofun
  | succ width ih =>
    intro c hc
    rcases List.mem_append.mp hc with hc | hc
    · exact ih _ c hc
    · obtain rfl := List.mem_singleton.mp hc
      have hdigits : ∀ d < 16, isMark (Nat.digitChar d) = false := by decide
      exact hdigits _ (Nat.mod_lt _ (by decide))

theorem unmarked_fractionText (fraction : Nat) : Unmarked (fractionText fraction) := by
  have hkept : Unmarked (((hexDigitsOf 13 fraction).reverse.dropWhile (· == '0')).reverse) := by
    intro c hc
    have hmem := (List.dropWhile_suffix _).subset (List.mem_reverse.mp hc)
    exact unmarked_hexDigitsOf 13 fraction c (List.mem_reverse.mp hmem)
  unfold fractionText
  split
  · exact nofun
  · exact unmarked_cons rfl hkept

theorem unmarked_exponentText (exponent : Int) : Unmarked (exponentText exponent) := by
  cases exponent with
  | ofNat n => exact unmarked_cons rfl (unmarked_cons rfl (unmarked_digits n))
  | negSucc n => exact unmarked_cons rfl (unmarked_cons rfl (unmarked_digits (n + 1)))

theorem unmarked_magnitudeText {lead : Char} (hlead : isMark lead = false) (fraction : Nat)
    (exponent : Int) : Unmarked (magnitudeText lead fraction exponent) := by
  refine unmarked_cons rfl (unmarked_cons rfl (unmarked_cons hlead ?_))
  intro c hc
  rcases List.mem_append.mp hc with hc | hc
  · exact unmarked_fractionText fraction c hc
  · exact unmarked_exponentText exponent c hc

theorem unmarked_finiteText (format : FloatFormat) (exponentField fraction : Nat) :
    Unmarked (finiteText format exponentField fraction) := by
  unfold finiteText
  dsimp only
  split
  · exact unmarked_magnitudeText rfl _ _
  · split
    · exact unmarked_magnitudeText rfl _ _
    · split
      · exact unmarked_magnitudeText rfl _ _
      · exact unmarked_magnitudeText rfl _ _

theorem unmarked_hexFloat (format : FloatFormat) (bits : Nat) :
    Unmarked (HexFloat.text format bits) := by
  unfold HexFloat.text
  dsimp only
  split
  · split
    · decide
    · split <;> decide
  · split
    · exact unmarked_cons rfl (unmarked_finiteText _ _ _)
    · exact unmarked_finiteText _ _ _

theorem unmarked_floatText {type : Node} {value suffix : String} {format : FloatFormat}
    (h : numberFormat? type value = some (format,suffix)) (bits : Nat) :
    Unmarked (String.ofList (HexFloat.text format bits) ++ suffix).toList := by
  have hsuffix : Unmarked suffix.toList := by
    unfold numberFormat? at h
    split at h
    · split at h
      · rename_i hformat
        split at h
        · cases h
          unfold floatFormat? at hformat
          split at hformat <;> cases hformat <;> decide
        · cases h
      · cases h
    · cases h
  refine unmarked_append ?_ hsuffix
  rw [String.toList_ofList]
  exact unmarked_hexFloat _ _

theorem unmarked_integerSuffix {type : Node} {suffix : String}
    (h : integerSuffix? type = some suffix) :
    Unmarked suffix.toList := by
  unfold integerSuffix? at h
  split at h
  · rename_i type
    cases type <;> cases h <;> decide
  · cases h

end

end MangledNames.Printing
