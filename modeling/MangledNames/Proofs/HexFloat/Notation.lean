import Mathlib
import MangledNames.Proofs.HexFloat.Representation
import MangledNames.Proofs.Numeral
set_option autoImplicit false

/-!
Numbers in hexadecimal notation, as `-0x1.8p+1`: a reader of them, and what it reads from
the text of a representation.
-/

namespace MangledNames

open Cursor

/-- A number in hexadecimal notation. -/
structure HexNumber where
  negative : Bool
  whole : List Char
  fraction : List Char
  exponent : Int
  deriving DecidableEq, Repr

namespace HexNumber

def magnitude (number : HexNumber) : ℚ :=
  numeral 16 (number.whole ++ number.fraction) / 16 ^ number.fraction.length * 2 ^ number.exponent

def value (number : HexNumber) : ℚ :=
  if number.negative then -number.magnitude else number.magnitude

/-- No zero at the end of the fraction could be left out. -/
def IsTrimmed (number : HexNumber) : Prop := number.fraction.getLast? ≠ some '0'

def isHexDigit (c : Char) : Bool := c.isDigit || ('A' ≤ c && c ≤ 'F')

def decimal? (digits : List Char) : Option Nat :=
  if digits ≠ [] ∧ digits.all Char.isDigit then some (Nat.ofDigitChars 10 digits 0) else none

def exponent? : List Char → Option Int
  | 'P' :: '+' :: digits => (decimal? digits).map fun n => (n : Int)
  | 'P' :: '-' :: digits => (decimal? digits).map fun n => -(n : Int)
  | _ => none

def fraction? (negative : Bool) (whole : List Char) : List Char → Option HexNumber
  | '.' :: text =>
    if text.takeWhile isHexDigit = [] then none
    else (exponent? (text.dropWhile isHexDigit)).map (⟨negative,whole,text.takeWhile isHexDigit,·⟩)
  | text => (exponent? text).map (⟨negative,whole,[],·⟩)

def whole? (negative : Bool) : List Char → Option HexNumber
  | '0' :: 'X' :: text =>
    if text.takeWhile isHexDigit = [] then none
    else fraction? negative (text.takeWhile isHexDigit) (text.dropWhile isHexDigit)
  | _ => none

/-- The number that a text spells, with letters of either case. -/
def read? (text : List Char) : Option HexNumber :=
  match text.map Char.toUpper with
  | '-' :: text => whole? true text
  | text => whole? false text

theorem read?_toUpper (text : List Char) : read? (text.map Char.toUpper) = read? text := by
  have hmap : (text.map Char.toUpper).map Char.toUpper = text.map Char.toUpper := by
    rw [List.map_map]
    exact List.map_congr_left fun c _ => Char.toUpper_toUpper_eq_toUpper c
  rw [read?,hmap,read?]

theorem read?_of_whole? {text : List Char} {number : HexNumber}
    (h : whole? false (text.map Char.toUpper) = some number) : read? text = some number := by
  unfold read?
  split
  · rename_i rest hrest
    rw [hrest] at h
    cases h
  · exact h

theorem exponent?_head {text : List Char} {exponent : Int} (h : exponent? text = some exponent) :
    ∃ rest, text = 'P' :: rest := by
  unfold exponent? at h
  split at h
  · exact ⟨_,rfl⟩
  · exact ⟨_,rfl⟩
  · cases h

theorem takeWhile_digits {digits : List Char} {c : Char} (text : List Char)
    (h : ∀ d ∈ digits, isHexDigit d = true) (hc : isHexDigit c = false) :
    (digits ++ c :: text).takeWhile isHexDigit = digits ∧
      (digits ++ c :: text).dropWhile isHexDigit = c :: text := by
  rw [List.takeWhile_append_of_pos h,List.dropWhile_append_of_pos h]
  simp [hc]

def pointed (digits : List Char) : List Char := if digits = [] then [] else '.' :: digits

theorem fraction?_pointed (negative : Bool) (whole : List Char) {digits text : List Char}
    {exponent : Int} (hdigits : ∀ d ∈ digits, isHexDigit d = true)
    (hexponent : exponent? text = some exponent) :
    fraction? negative whole (pointed digits ++ text) = some ⟨negative,whole,digits,exponent⟩ := by
  obtain ⟨rest,rfl⟩ := exponent?_head hexponent
  by_cases hnone : digits = []
  · simp [pointed,hnone,fraction?,hexponent]
  · obtain ⟨htake,hdrop⟩ := takeWhile_digits rest hdigits (show isHexDigit 'P' = false by decide)
    simp only [pointed,hnone,if_false,List.cons_append,fraction?,htake,hdrop,hexponent,
      Option.map_some]

theorem whole?_spelled (negative : Bool) {whole digits text : List Char} {exponent : Int}
    (hwhole : ∀ d ∈ whole, isHexDigit d = true) (hne : whole ≠ [])
    (hdigits : ∀ d ∈ digits, isHexDigit d = true) (hexponent : exponent? text = some exponent) :
    whole? negative ('0' :: 'X' :: (whole ++ (pointed digits ++ text))) =
      some ⟨negative,whole,digits,exponent⟩ := by
  have hafter : ∃ c rest, pointed digits ++ text = c :: rest ∧ isHexDigit c = false := by
    obtain ⟨rest,rfl⟩ := exponent?_head hexponent
    by_cases hnone : digits = []
    · exact ⟨'P',rest,by simp [pointed,hnone],by decide⟩
    · exact ⟨'.',digits ++ 'P' :: rest,by simp [pointed,hnone],by decide⟩
  obtain ⟨c,rest,hrest,hc⟩ := hafter
  obtain ⟨htake,hdrop⟩ := takeWhile_digits rest hwhole hc
  rw [whole?,hrest,htake,hdrop,if_neg hne,← hrest]
  exact fraction?_pointed negative whole hdigits hexponent

end HexNumber

namespace HexFloat

open HexNumber

theorem toUpper_digit {c : Char} (h : c.isDigit = true) : c.toUpper = c := by
  refine Char.toUpper_eq_of_not_isLower fun hlower => ?_
  simp only [Char.isDigit,Char.isLower,Bool.and_eq_true,decide_eq_true_eq] at h hlower
  have h9 := UInt32.le_iff_toNat_le.mp h.2
  have ha := UInt32.le_iff_toNat_le.mp hlower.1
  have h9' : ('9'.val).toNat = 57 := rfl
  have ha' : ('a'.val).toNat = 97 := rfl
  omega

theorem exponent?_exponentText (exponent : Int) :
    exponent? ((exponentText exponent).map Char.toUpper) = some exponent := by
  have decimal : ∀ n, decimal? ((Nat.toDigits 10 n).map Char.toUpper) = some n := by
    intro n
    have hdigits : ∀ c ∈ Nat.toDigits 10 n, c.isDigit = true := fun c hc =>
      Nat.isDigit_of_mem_toDigits (by decide) (by decide) hc
    rw [List.map_congr_left fun c hc => toUpper_digit (hdigits c hc),List.map_id']
    rw [decimal?,if_pos ⟨Nat.toDigits_ne_nil,List.all_eq_true.mpr hdigits⟩,
      Nat.ofDigitChars_toDigits (by decide) (by decide)]
  have hp : 'p'.toUpper = 'P' := by decide
  have hplus : '+'.toUpper = '+' := by decide
  have hminus : '-'.toUpper = '-' := by decide
  cases exponent with
  | ofNat n =>
    simp only [exponentText,List.map_cons,hp,hplus,exponent?,decimal]
    rfl
  | negSucc n =>
    simp only [exponentText,List.map_cons,hp,hminus,exponent?,decimal]
    rfl

theorem toUpper_digitChar : ∀ d < 16, (Nat.digitChar d).toUpper = digitChar d := by decide

theorem isHexDigit_digitChar : ∀ d < 16, isHexDigit (digitChar d) = true := by decide

def upperDigits (width n : Nat) : List Char := (hexDigitsOf width n).map Char.toUpper

theorem upperDigits_succ (width n : Nat) :
    upperDigits (width + 1) n = upperDigits width (n / 16) ++ [digitChar (n % 16)] := by
  simp [upperDigits,hexDigitsOf,toUpper_digitChar (n % 16) (Nat.mod_lt _ (by decide))]

theorem length_upperDigits (width n : Nat) : (upperDigits width n).length = width := by
  induction width generalizing n with
  | zero => rfl
  | succ width ih => rw [upperDigits_succ,List.length_append,ih,List.length_singleton]

theorem isHexDigit_upperDigits (width n : Nat) :
    ∀ c ∈ upperDigits width n, isHexDigit c = true := by
  induction width generalizing n with
  | zero => exact List.forall_mem_nil _
  | succ width ih =>
    rw [upperDigits_succ,List.forall_mem_append]
    exact ⟨ih (n / 16),List.forall_mem_singleton.mpr
      (isHexDigit_digitChar _ (Nat.mod_lt _ (by decide)))⟩

theorem numeral_upperDigits (width n : Nat) :
    numeral 16 (upperDigits width n) = n % 16 ^ width := by
  induction width generalizing n with
  | zero => simp [upperDigits,hexDigitsOf,numeral,Nat.mod_one]
  | succ width ih =>
    rw [upperDigits_succ,numeral_concat,ih,
      digitValue_digitChar (Nat.lt_trans (Nat.mod_lt n (by decide)) (by decide)),Nat.pow_succ,
      Nat.mul_comm (16 ^ width),Nat.mod_mul]
    ring

theorem eq_zero_of_toUpper {c : Char} (h : c.toUpper = '0') : c = '0' := by
  have halpha : c.isAlpha = false := by
    rw [← Char.isAlpha_toUpper_eq_isAlpha,h]
    decide
  rwa [Char.toUpper_eq_of_not_isLower (by simp_all [Char.isAlpha])] at h

def trimmed (digits : List Char) : List Char := (digits.rdropWhile (· == '0')).map Char.toUpper

theorem trimmed_append_zeros (digits : List Char) :
    ∃ k, digits.map Char.toUpper = trimmed digits ++ List.replicate k '0' := by
  have hzeros : ∀ c ∈ digits.rtakeWhile (· == '0'), c = '0' := by
    intro c hc
    simpa using List.mem_rtakeWhile_imp hc
  have hzero : '0'.toUpper = '0' := by decide
  have hsplit : digits = digits.rdropWhile (· == '0') ++ digits.rtakeWhile (· == '0') :=
    List.rdropWhile_append_rtakeWhile.symm
  rw [List.eq_replicate_of_mem hzeros] at hsplit
  refine ⟨(digits.rtakeWhile (· == '0')).length,?_⟩
  conv_lhs => rw [hsplit]
  rw [List.map_append,List.map_replicate,hzero,trimmed]

theorem getLast?_trimmed (digits : List Char) : (trimmed digits).getLast? ≠ some '0' := by
  rw [trimmed,List.getLast?_map]
  intro hlast
  obtain ⟨c,hc,hzero⟩ := Option.map_eq_some_iff.mp hlast
  obtain ⟨hne,hc⟩ := List.mem_getLast?_eq_getLast hc
  exact List.rdropWhile_last_not _ _ hne (by simp [← hc,eq_zero_of_toUpper hzero])

theorem fractionText_toUpper (fraction : Nat) :
    (fractionText fraction).map Char.toUpper = pointed (trimmed (hexDigitsOf 13 fraction)) := by
  have hpoint : '.'.toUpper = '.' := by decide
  unfold fractionText trimmed List.rdropWhile
  cases ((hexDigitsOf 13 fraction).reverse.dropWhile (· == '0')).reverse with
  | nil => rfl
  | cons c digits => simp [pointed,hpoint]

theorem trimmed_value {fraction : Nat} (h : fraction < 2 ^ 52) :
    (numeral 16 (trimmed (hexDigitsOf 13 fraction)) : ℚ) /
      16 ^ (trimmed (hexDigitsOf 13 fraction)).length = fraction / 2 ^ 52 := by
  obtain ⟨k,hk⟩ := trimmed_append_zeros (hexDigitsOf 13 fraction)
  have hlength := congrArg List.length hk
  have hvalue := congrArg (numeral 16) hk
  have hzeros : ∀ k, numeral 16 (List.replicate k '0') = 0 := by
    intro k
    induction k with
    | zero => rfl
    | succ k ih =>
      rw [List.replicate_succ',numeral_concat,ih]
      rfl
  rw [← upperDigits,length_upperDigits,List.length_append,List.length_replicate] at hlength
  rw [← upperDigits,numeral_upperDigits,numeral_append,hzeros,List.length_replicate,
    Nat.mod_eq_of_lt (by omega)] at hvalue
  generalize trimmed (hexDigitsOf 13 fraction) = digits at hlength hvalue ⊢
  have hscale : (2 : ℚ) ^ 52 = 16 ^ digits.length * 16 ^ k := by
    rw [← pow_add,← hlength]
    norm_num
  rw [hscale,hvalue]
  push_cast
  field_simp
  ring

/-- A text spells a number behind its sign, and no digit could be left out. -/
def Spells (negative : Bool) (text : List Char) (magnitude : ℚ) : Prop :=
  ∃ number, whole? negative (text.map Char.toUpper) = some number ∧ number.negative = negative ∧
    number.magnitude = magnitude ∧ number.IsTrimmed

section
variable (negative : Bool) {fraction : Nat}

theorem magnitudeText_spells {lead : Char} (hlead : lead = '0' ∨ lead = '1') (h : fraction < 2 ^ 52)
    (exponent : Int) : Spells negative (magnitudeText lead fraction exponent)
      ((Cursor.digitValue lead + fraction / 2 ^ 52) * 2 ^ exponent) := by
  have hkept : lead.toUpper = lead := by
    rcases hlead with rfl | rfl
    · decide
    · decide
  have hwhole : ∀ d ∈ [lead], isHexDigit d = true := by
    refine List.forall_mem_singleton.mpr ?_
    rcases hlead with rfl | rfl
    · decide
    · decide
  have hdigits : ∀ d ∈ trimmed (hexDigitsOf 13 fraction), isHexDigit d = true := by
    obtain ⟨k,hk⟩ := trimmed_append_zeros (hexDigitsOf 13 fraction)
    intro d hd
    refine isHexDigit_upperDigits 13 fraction d ?_
    rw [upperDigits,hk]
    exact List.mem_append_left _ hd
  have htext : (magnitudeText lead fraction exponent).map Char.toUpper = '0' :: 'X' :: ([lead] ++
      (pointed (trimmed (hexDigitsOf 13 fraction)) ++ (exponentText exponent).map
        Char.toUpper)) := by
    rw [← fractionText_toUpper,magnitudeText,← List.map_append]
    simp only [List.cons_append,List.nil_append,List.map_cons,hkept]
    rfl
  have hvalue := trimmed_value h
  have hlast := getLast?_trimmed (hexDigitsOf 13 fraction)
  rw [Spells,htext,← hvalue]
  -- the digits are not to be computed
  generalize trimmed (hexDigitsOf 13 fraction) = digits at hdigits hlast ⊢
  refine ⟨⟨negative,[lead],digits,exponent⟩,?_,rfl,?_,hlast⟩
  · exact whole?_spelled negative hwhole (List.cons_ne_nil _ _) hdigits
      (exponent?_exponentText exponent)
  · have hlead : numeral 16 [lead] = Cursor.digitValue lead := by simp [numeral]
    rw [magnitude,numeral_append,hlead]
    push_cast
    rw [add_div,mul_div_cancel_right₀ _ (by positivity)]

theorem digitValue_zero : ((Cursor.digitValue '0' : Nat) : ℚ) = 0 := Nat.cast_zero

theorem digitValue_one : ((Cursor.digitValue '1' : Nat) : ℚ) = 1 := Nat.cast_one

/-- Bits of a fraction behind which zeros are put until there are 52. -/
theorem widened_value {width fraction : Nat} (hwidth : width ≤ 52) (h : fraction < 2 ^ width) :
    fraction * 2 ^ (52 - width) < 2 ^ 52 ∧
      ((fraction * 2 ^ (52 - width) : Nat) : ℚ) / 2 ^ 52 = fraction / 2 ^ width := by
  have hpow :
    2 ^ 52 = 2 ^ width * 2 ^ (52 - width) := by rw [← Nat.pow_add,Nat.add_sub_cancel' hwidth]
  have hpow' : (2 : ℚ) ^ 52 = 2 ^ width * 2 ^ (52 - width) := by exact_mod_cast hpow
  constructor
  · rw [hpow]
    exact Nat.mul_lt_mul_of_pos_right h (Nat.two_pow_pos _)
  · rw [hpow']
    push_cast
    field_simp

/-- A subnormal number of a narrower format, as a normal one of the wider. -/
theorem subnormal_spells {width bias : Nat} (hwidth : width < 52) (h : fraction < 2 ^ width)
    (hpos : fraction ≠ 0) :
    Spells negative (magnitudeText '1'
        ((fraction - 2 ^ fraction.log2) * 2 ^ (52 - fraction.log2))
        ((fraction.log2 : Int) - bias - width + 1))
      (fraction / 2 ^ width * 2 ^ (1 - bias : ℤ)) := by
  have two : (2 : ℚ) ≠ 0 := by norm_num
  have htop := Nat.log2_self_le hpos
  have hnext := Nat.lt_log2_self (n := fraction)
  have hlog : fraction.log2 < width := (Nat.log2_lt hpos).mpr h
  generalize fraction.log2 = top at *
  rw [Nat.pow_succ] at hnext
  have hrest : fraction - 2 ^ top < 2 ^ top := by omega
  obtain ⟨hfits,hvalue⟩ := widened_value (show top ≤ 52 by omega) hrest
  have hscale :
      (2 : ℚ) ^ ((top : ℤ) - bias - width + 1) = 2 ^ top * 2 ^ (1 - bias : ℤ) / 2 ^ width := by
    rw [← zpow_natCast,← zpow_natCast,← zpow_add₀ two,← zpow_sub₀ two]
    congr 1
    ring
  refine (magnitudeText_spells negative (.inr rfl) hfits _).imp
      fun number ⟨hread,hnegative,hmagnitude,htrimmed⟩ =>
    ⟨hread,hnegative,?_,htrimmed⟩
  rw [hmagnitude,hvalue,hscale,digitValue_one,Nat.cast_sub htop]
  push_cast
  field_simp
  ring

variable {format : FloatFormat}

/-- A finite number is spelled as it is, whether it is normal, subnormal or zero. -/
theorem finiteText_spells (hwidth : format.fractionBits ≤ 52) (bits : Nat) :
    Spells negative (finiteText format (format.exponentField bits) (format.fractionField bits))
      (format.magnitude bits) := by
  have hfraction := format.fractionField_lt bits
  unfold finiteText FloatFormat.magnitude
  generalize format.fractionField bits = fraction at *
  generalize format.exponentField bits = exponentField
  obtain ⟨hfits,hvalue⟩ := widened_value hwidth hfraction
  simp only [Nat.pow_eq]
  by_cases hnormal : exponentField = 0
  · rw [if_neg (not_not_intro hnormal),if_pos hnormal]
    by_cases hnone : fraction = 0
    · rw [if_pos hnone]
      have hspells := magnitudeText_spells negative (.inl rfl) (show 0 < 2 ^ 52 by decide) 0
      simpa [digitValue_zero,hnone] using hspells
    · rw [if_neg hnone]
      by_cases hnarrow : format.fractionBits < 52
      · rw [if_pos hnarrow]
        exact subnormal_spells negative hnarrow hfraction hnone
      · rw [if_neg hnarrow]
        have hspells := magnitudeText_spells negative (.inl rfl) hfits (1 - (format.bias : Int))
        rwa [digitValue_zero,zero_add,hvalue] at hspells
  · rw [if_pos hnormal,if_neg hnormal]
    have hspells :=
      magnitudeText_spells negative (.inr rfl) hfits ((exponentField : Int) - format.bias)
    rwa [digitValue_one,hvalue] at hspells

end

theorem text_eq (format : FloatFormat) (bits : Nat) : text format bits =
    if format.exponentField bits = 2 ^ format.exponentBits - 1 then
      if format.fractionField bits ≠ 0 then "nan".toList
      else if format.isNegative bits then "-inf".toList else "inf".toList
    else (if format.isNegative bits then ['-'] else []) ++
      finiteText format (format.exponentField bits) (format.fractionField bits) := by
  unfold text
  simp only [Nat.pow_eq,FloatFormat.fractionField,FloatFormat.exponentField,FloatFormat.isNegative,
    decide_eq_true_eq]
  split
  · rfl
  · split
    · rfl
    · rfl

/-- The text of a finite number is read as that number, also the sign of zero. -/
theorem read?_text {format : FloatFormat} (hwidth : format.fractionBits ≤ 52) {bits : Nat}
    (hfinite : format.IsFinite bits) :
    ∃ number, read? (text format bits) = some number ∧ number.negative = format.isNegative bits ∧
      number.value = format.value bits ∧ number.IsTrimmed := by
  obtain ⟨number,hread,hnegative,hmagnitude,htrimmed⟩ :=
    finiteText_spells (format.isNegative bits) hwidth bits
  refine ⟨number,?_,hnegative,?_,htrimmed⟩
  · rw [text_eq,if_neg hfinite]
    cases hsign : format.isNegative bits with
    | true =>
      rw [hsign] at hread
      exact hread
    | false =>
      rw [hsign] at hread
      exact read?_of_whole? hread
  · rw [value,hnegative,hmagnitude,FloatFormat.value]

end HexFloat

end MangledNames
