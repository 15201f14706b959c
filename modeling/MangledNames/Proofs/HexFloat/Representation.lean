import Mathlib.Algebra.Order.Field.Power
import Mathlib.Data.Rat.Defs
import Mathlib.Tactic.FieldSimp
import Mathlib.Tactic.Positivity
import Mathlib.Tactic.Ring
import MangledNames.HexFloat
set_option autoImplicit false

/-!
What the representations of binary floating point numbers stand for: the number that sign, exponent
and fraction spell. Sign and number together tell which representation it was.
-/

namespace MangledNames.FloatFormat

section
variable (format : FloatFormat) (bits : Nat)

def isNegative : Bool := bits / 2 ^ (format.fractionBits + format.exponentBits) % 2 = 1

def exponentField (bits : Nat) : Nat := bits / 2 ^ format.fractionBits % 2 ^ format.exponentBits

def fractionField (bits : Nat) : Nat := bits % 2 ^ format.fractionBits

/-- Infinities, and what is no number, have only ones in the exponent. -/
def IsFinite : Prop := format.exponentField bits ≠ 2 ^ format.exponentBits - 1

/-- The number without its sign. The bit in front of the point is a one, except where the exponent
field is zero. -/
def magnitude : ℚ :=
  if format.exponentField bits = 0 then
    format.fractionField bits / 2 ^ format.fractionBits * 2 ^ (1 - format.bias : ℤ)
  else
    (1 + format.fractionField bits / 2 ^ format.fractionBits) *
      2 ^ (format.exponentField bits - format.bias : ℤ)

/-- The number that a finite representation stands for. -/
def value : ℚ := if format.isNegative bits then -format.magnitude bits else format.magnitude bits

/-- The number without its sign, as a multiple of the smallest one. -/
def significand : Nat :=
  if format.exponentField bits = 0 then format.fractionField bits
  else (2 ^ format.fractionBits + format.fractionField bits) * 2 ^ (format.exponentField bits - 1)

theorem fractionField_lt : format.fractionField bits < 2 ^ format.fractionBits :=
  Nat.mod_lt _ (by positivity)

theorem magnitude_eq_significand : format.magnitude bits =
    format.significand bits * 2 ^ (1 - format.bias - format.fractionBits : ℤ) := by
  have two : (2 : ℚ) ≠ 0 := by norm_num
  have hscale : (2 : ℚ) ^ (1 - format.bias - format.fractionBits : ℤ) =
      2 ^ (1 - format.bias : ℤ) / 2 ^ format.fractionBits := by
    rw [zpow_sub₀ two,zpow_natCast]
  unfold magnitude significand
  split
  · rw [hscale]
    ring
  · rename_i hfield
    obtain ⟨e,he⟩ := Nat.exists_eq_succ_of_ne_zero hfield
    have hexponent : (2 : ℚ) ^ (((e + 1 : Nat) : ℤ) - format.bias) =
        2 ^ e * 2 ^ (1 - format.bias : ℤ) := by
      rw [← zpow_natCast,← zpow_add₀ two]
      congr 1
      push_cast
      ring
    rw [hscale,he,Nat.succ_eq_add_one,hexponent,Nat.add_sub_cancel]
    push_cast
    field_simp

theorem bits_eq_fields {bits : Nat}
    (h : bits < 2 ^ (format.fractionBits + format.exponentBits + 1)) :
    bits = ((format.isNegative bits).toNat * 2 ^ format.exponentBits + format.exponentField bits) *
      2 ^ format.fractionBits + format.fractionField bits := by
  have hsign : (format.isNegative bits).toNat =
      bits / 2 ^ (format.fractionBits + format.exponentBits) := by
    have htop : bits / 2 ^ (format.fractionBits + format.exponentBits) < 2 :=
      Nat.div_lt_of_lt_mul (by rwa [← Nat.pow_succ])
    unfold isNegative
    generalize bits / 2 ^ (format.fractionBits + format.exponentBits) = top at htop ⊢
    obtain rfl | rfl : top = 0 ∨ top = 1 := by omega
    · rfl
    · rfl
  rw [hsign,Nat.pow_add,← Nat.div_div_eq_div_mul]
  unfold exponentField fractionField
  rw [Nat.div_add_mod',Nat.div_add_mod']

end

variable {format : FloatFormat} {bits bits' : Nat}

theorem significand_bounds (h : format.exponentField bits ≠ 0) :
    2 ^ (format.fractionBits + format.exponentField bits) ≤ 2 * format.significand bits ∧
      format.significand bits < 2 ^ (format.fractionBits + format.exponentField bits) := by
  obtain ⟨e,he⟩ := Nat.exists_eq_succ_of_ne_zero h
  have hfraction := format.fractionField_lt bits
  have hpow : 0 < 2 ^ e := by positivity
  unfold significand
  rw [if_neg h,he,Nat.succ_eq_add_one,Nat.add_sub_cancel,← Nat.add_assoc,Nat.pow_succ,Nat.pow_add]
  constructor
  · rw [Nat.mul_comm 2]
    exact Nat.mul_le_mul_right 2 (Nat.mul_le_mul_right _ (Nat.le_add_right _ _))
  · rw [Nat.mul_right_comm]
    exact Nat.mul_lt_mul_of_pos_right (by omega) hpow

theorem exponentField_eq (h : format.significand bits = format.significand bits') :
    format.exponentField bits = format.exponentField bits' := by
  have below : ∀ {a b : Nat}, format.significand a = format.significand b →
      format.exponentField b ≤ format.exponentField a := by
    intro a b hab
    by_contra hlt
    have hfield : format.exponentField b ≠ 0 := by omega
    have hb := significand_bounds hfield
    have hupper : 2 * format.significand a <
        2 ^ (format.fractionBits + format.exponentField b) := by
      by_cases ha : format.exponentField a = 0
      · have hfraction := format.fractionField_lt a
        have hroom : 2 ^ format.fractionBits * 2 ≤
            2 ^ (format.fractionBits + format.exponentField b) := by
          rw [← Nat.pow_succ]
          exact Nat.pow_le_pow_right (by decide) (by omega)
        unfold significand
        rw [if_pos ha]
        omega
      · have hroom : 2 ^ (format.fractionBits + format.exponentField a) * 2 ≤
            2 ^ (format.fractionBits + format.exponentField b) := by
          rw [← Nat.pow_succ]
          exact Nat.pow_le_pow_right (by decide) (by omega)
        have ha' := (significand_bounds ha).2
        omega
    omega
  exact Nat.le_antisymm (below h.symm) (below h)

theorem fractionField_eq (h : format.significand bits = format.significand bits') :
    format.fractionField bits = format.fractionField bits' := by
  have hfield := exponentField_eq h
  unfold significand at h
  rw [hfield] at h
  split at h
  · exact h
  · exact Nat.add_left_cancel (Nat.eq_of_mul_eq_mul_right (by positivity) h)

theorem eq_of_value_eq (h : bits < 2 ^ (format.fractionBits + format.exponentBits + 1))
    (h' : bits' < 2 ^ (format.fractionBits + format.exponentBits + 1))
    (hsign : format.isNegative bits = format.isNegative bits')
    (hvalue : format.value bits = format.value bits') : bits = bits' := by
  have hmagnitude : format.magnitude bits = format.magnitude bits' := by
    unfold value at hvalue
    rw [hsign] at hvalue
    split at hvalue
    · exact neg_injective hvalue
    · exact hvalue
  have hscale : (2 : ℚ) ^ (1 - format.bias - format.fractionBits : ℤ) ≠ 0 := by positivity
  rw [magnitude_eq_significand,magnitude_eq_significand] at hmagnitude
  have hsignificand : format.significand bits = format.significand bits' := by
    exact_mod_cast mul_right_cancel₀ hscale hmagnitude
  rw [format.bits_eq_fields h,format.bits_eq_fields h',hsign,exponentField_eq hsignificand,
    fractionField_eq hsignificand]

end MangledNames.FloatFormat
