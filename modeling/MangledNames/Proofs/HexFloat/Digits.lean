import Mathlib.Algebra.Group.Nat.Defs
import Mathlib.Data.List.Induction
import MangledNames.Grammar.Expression
import MangledNames.Printing.Literal
set_option autoImplicit false

/-!
Hexadecimal digits: what they spell, and that what is read as the value of a literal and printed as
one number consists of them.
-/

namespace MangledNames

namespace HexFloat

theorem digitValue_lt {c : Char} (h : isDigit c = true) : digitValue c < 16 := by
  have values : '0'.toNat = 48 ∧ '9'.toNat = 57 ∧ 'a'.toNat = 97 ∧ 'f'.toNat = 102 ∧
      'A'.toNat = 65 ∧ 'F'.toNat = 70 := ⟨rfl,rfl,rfl,rfl,rfl,rfl⟩
  have le_iff : ∀ a b : Char, a ≤ b ↔ a.toNat ≤ b.toNat := fun _ _ => UInt32.le_iff_toNat_le
  have hdigit : c.isDigit = true ↔ '0' ≤ c ∧ c ≤ '9' := by simp [Char.isDigit]; rfl
  simp only [isDigit,Bool.or_eq_true,Bool.and_eq_true,decide_eq_true_eq,hdigit,le_iff] at h
  unfold digitValue
  simp only [le_iff]
  split
  · omega
  · split
    · omega
    · omega

theorem bitsOf_lt {digits : List Char} (h : ∀ c ∈ digits, isDigit c = true) :
    bitsOf digits < 16 ^ digits.length := by
  induction digits using List.reverseRecOn with
  | nil => simp [bitsOf]
  | append_singleton digits c ih =>
    rw [List.forall_mem_append,List.forall_mem_singleton] at h
    have hdigits := ih h.1
    have hc := digitValue_lt h.2
    unfold bitsOf at hdigits ⊢
    rw [List.foldl_append,List.foldl_cons,List.foldl_nil,List.length_append,List.length_singleton,
      Nat.pow_succ]
    omega

theorem bitsOf?_eq {text : List Char} (h : ∀ c ∈ text, isDigit c = true) :
    bitsOf? text = some (bitsOf text) := if_pos (List.all_eq_true.mpr h)

theorem isDigit_toLower {c : Char} (h : isDigit c = true) : isDigit c.toLower = true := by
  by_cases hsmall : c.toNat < 128
  · have hfirst : ∀ n < 128, isDigit (Char.ofNat n) = true →
        isDigit (Char.ofNat n).toLower = true := by decide
    have hlower := hfirst c.toNat hsmall
    rw [Char.ofNat_toNat] at hlower
    exact hlower h
  · have hkept : c.toLower = c := dif_neg fun hz => hsmall <| by
      have hle : c.toNat ≤ 'Z'.toNat := hz.2
      exact Nat.lt_of_le_of_lt hle (by decide)
    rwa [hkept]

end HexFloat

namespace Grammar

/-- The value of a literal is one number, or two with `_` between them. -/
theorem isFloatValue_iff {value : List Char} : isFloatValue value = true ↔
    (value ≠ [] ∧ ∀ c ∈ value, HexFloat.isDigit c = true) ∨
      ∃ first second, value = first ++ '_' :: second ∧
        (first ≠ [] ∧ ∀ c ∈ first, HexFloat.isDigit c = true) ∧
        second ≠ [] ∧ ∀ c ∈ second, HexFloat.isDigit c = true := by
  have hvalue :
    value.takeWhile HexFloat.isDigit ++ value.drop (value.takeWhile HexFloat.isDigit).length =
      value := List.prefix_iff_eq_append.mp (List.takeWhile_prefix _)
  constructor
  · intro h
    obtain ⟨hne,hrest⟩ := Bool.and_eq_true _ _ ▸ h
    have hfirst : value.takeWhile HexFloat.isDigit ≠ [] ∧
        ∀ c ∈ value.takeWhile HexFloat.isDigit, HexFloat.isDigit c = true :=
      ⟨by simpa using hne,List.all_eq_true.mp List.all_takeWhile⟩
    split at hrest
    · rename_i hdrop
      rw [hdrop,List.append_nil] at hvalue
      exact .inl (hvalue ▸ hfirst)
    · rename_i second hdrop
      obtain ⟨hsecond,hdigits⟩ := Bool.and_eq_true _ _ ▸ hrest
      rw [hdrop] at hvalue
      exact .inr ⟨_,second,hvalue.symm,hfirst,by simpa using hsecond,List.all_eq_true.mp hdigits⟩
    · cases hrest
  · have taken : ∀ {digits : List Char} (rest : List Char),
        (∀ c ∈ digits, HexFloat.isDigit c = true) → rest.takeWhile HexFloat.isDigit = [] →
        (digits ++ rest).takeWhile HexFloat.isDigit = digits := fun rest hdigits hrest => by
      rw [List.takeWhile_append_of_pos hdigits,hrest,List.append_nil]
    rintro (⟨hne,hdigits⟩ | ⟨first,second,rfl,⟨hne,hfirst⟩,hsecond,hdigits⟩)
    · have htaken := taken [] hdigits rfl
      rw [List.append_nil] at htaken
      simp [isFloatValue,htaken,hne]
    · have htaken := taken ('_' :: second) hfirst (List.takeWhile_cons_of_neg (by decide))
      simpa [isFloatValue,htaken,hne,hsecond] using hdigits

theorem isFloatValue_toLower {value : List Char} (h : isFloatValue value = true) :
    isFloatValue (value.map Char.toLower) = true := by
  have lowered : ∀ {digits : List Char}, (digits ≠ [] ∧ ∀ c ∈ digits, HexFloat.isDigit c = true) →
      digits.map Char.toLower ≠ [] ∧ ∀ c ∈ digits.map Char.toLower, HexFloat.isDigit c = true :=
    fun hdigits => ⟨mt List.map_eq_nil_iff.mp hdigits.1,
      List.forall_mem_map.mpr fun c hc => HexFloat.isDigit_toLower (hdigits.2 c hc)⟩
  rw [isFloatValue_iff] at h ⊢
  obtain hdigits | ⟨first,second,rfl,hfirst,hsecond⟩ := h
  · exact .inl (lowered hdigits)
  · refine .inr ⟨first.map Char.toLower,second.map Char.toLower,?_,lowered hfirst,lowered hsecond⟩
    rw [List.map_append]
    rfl

end Grammar

namespace Printing

/-- What is read as the value of a literal and printed as one number has nothing but digits. -/
theorem digits_of_numberFormat? {type : Node} {value : String} {format : FloatFormat × String}
    (hvalue : Grammar.isFloatValue value.toList = true)
    (h : numberFormat? type value = some format) :
    ∀ c ∈ value.toList, HexFloat.isDigit c = true := by
  have hscore : '_' ∉ value.toList := by
    unfold numberFormat? at h
    split at h
    · split at h
      · split at h
        · rename_i hsingle
          exact hsingle.2
        · cases h
      · cases h
    · cases h
  obtain ⟨_,hdigits⟩ | ⟨first,second,htext,_⟩ := Grammar.isFloatValue_iff.mp hvalue
  · exact hdigits
  · rw [htext] at hscore
    exact absurd (List.mem_append_right first (.head second)) hscore

end Printing

end MangledNames
