import MangledNames.Proofs.HexFloat.Digits
import MangledNames.Proofs.HexFloat.Notation
import MangledNames.Proofs.Printing.Texts
set_option autoImplicit false

/-!
Literals of floating point types: the printed text is the number that the digits of the literal
represent, exactly, and tells its representation.
-/

namespace MangledNames

/-- Literals of a format have all hexadecimal digits of a representation. -/
structure FloatFormat.Represents (format : FloatFormat) (value : String) : Prop where
  length : value.toList.length = format.hexDigits
  digits : ∀ c ∈ value.toList, HexFloat.isDigit c = true

namespace Printing

variable {config : Config} {type : BuiltinType} {format : FloatFormat} {suffix value : String}

def numberText (config : Config) (format : FloatFormat) (bits : Nat) : String :=
  cased config (String.ofList (HexFloat.text format bits))

def literalText (config : Config) (format : FloatFormat) (suffix value : String) : String :=
  numberText config format (HexFloat.bitsOf value.toList) ++ cased config suffix

theorem cased_append (config : Config) (a b : String) :
    cased config (a ++ b) = cased config a ++ cased config b := by
  unfold cased
  split
  · rfl
  · apply String.toList_injective
    simp [String.toList_map]

theorem read?_cased (config : Config) (text : List Char) :
    HexNumber.read? (cased config (String.ofList text)).toList = HexNumber.read? text := by
  unfold cased
  split
  · rw [String.toList_ofList]
  · rw [String.toList_map,String.toList_ofList,HexNumber.read?_toUpper]

theorem floatFormat?_cases (htype : floatFormat? type = some (format,suffix)) :
    format.fractionBits ≤ 52 ∧
    4 * format.hexDigits = format.fractionBits + format.exponentBits + 1 := by
  unfold floatFormat? at htype
  split at htype
  · cases htype
    decide
  · cases htype
    decide
  · cases htype

theorem numberFormat?_eq (htype : floatFormat? type = some (format,suffix))
    (hvalue : format.Represents value) :
    numberFormat? (.builtinType type) value = some (format,suffix) := by
  have hscore : '_' ∉ value.toList := fun hmem =>
    absurd (hvalue.digits _ hmem) (by decide)
  simp only [numberFormat?,htype]
  rw [if_pos ⟨hvalue.length,hscore⟩]

/-- A literal is printed in two steps, as one piece. -/
theorem print_floatLiteral (htype : floatFormat? type = some (format,suffix))
    (hvalue : format.Represents value) (n : Nat) (place : Place) :
    (Halves.levels config (n + 1)).print place (.floatLiteral (.builtinType type) value) = (do
      step config
      write (literalText config format suffix value)
      step config) := by
  have hwrite :
    leftHalf config (Halves.levels config n) place (.floatLiteral (.builtinType type) value) =
      write (literalText config format suffix value) := by
    rw [literalText,numberText,← cased_append]
    change floatLiteral _ _ _ _ _ = _
    unfold floatLiteral
    simp only [numberFormat?_eq htype hvalue,HexFloat.bitsOf?_eq hvalue.digits]
  change (step config >>= fun _ => leftHalf config _ place _) >>=
    (fun _ => step config >>= fun _ => pure ()) = _
  rw [hwrite,bind_assoc,bind_pure_unit]

theorem floatLiteral_spelling (htype : floatFormat? type = some (format,suffix))
    (hvalue : format.Represents value) (n : Nat) (place : Place) :
    Says ((Halves.levels config n).print place (.floatLiteral (.builtinType type) value))
      (· = literalText config format suffix value) := by
  cases n with
  | zero =>
    intro s _ _ t ht
    obtain ⟨_,_,hleft,_⟩ := bind_ok ht
    obtain ⟨_,_,_,hfail⟩ := bind_ok hleft
    cases hfail
  | succ n =>
    rw [print_floatLiteral htype hvalue]
    have hwrite : Says (write (literalText config format suffix value) >>= fun _ => step config)
        (· = literalText config format suffix value) := by
      refine (Says.write _).bind (fun _ => step_puts) ?_
      rintro _ _ rfl rfl
      exact String.append_empty
    refine step_puts.bind (fun _ => hwrite) ?_
    rintro _ _ rfl rfl
    exact String.empty_append

theorem floatLiteral_ok (htype : floatFormat? type = some (format,suffix))
    (hvalue : format.Represents value) (n : Nat) (place : Place) {s : Sheet}
    (hvisits : s.visits + 2 ≤ config.outputSizeLimit)
    (hroom : s.output.size + (literalText config format suffix value).length ≤ s.output.limit) :
    ∃ t, (Halves.levels config (n + 1)).print place (.floatLiteral (.builtinType type) value) s =
      .ok () t := by
  have stepped : ∀ t : Sheet, t.visits + 1 ≤ config.outputSizeLimit →
      step config t = .ok () ⟨t.output,t.visits + 1⟩ := fun _ ht => step_ok_iff.mpr ⟨ht,rfl⟩
  have hwrite :
    ∃ t, write (literalText config format suffix value) ⟨s.output,s.visits + 1⟩ = .ok () t ∧
      t.visits = s.visits + 1 := by
    rw [write_apply]
    split
    · exact ⟨_,rfl,rfl⟩
    · rw [if_neg (Nat.not_lt.mpr hroom)]
      exact ⟨_,rfl,rfl⟩
  obtain ⟨t,ht,hvisited⟩ := hwrite
  refine ⟨⟨t.output,t.visits + 1⟩,?_⟩
  rw [print_floatLiteral htype hvalue,bind_apply,stepped s (by omega)]
  change (write _ >>= fun _ => step config) ⟨s.output,s.visits + 1⟩ = _
  rw [bind_apply,ht]
  exact stepped t (by omega)

theorem numberText_finite (hwidth : format.fractionBits ≤ 52) {bits : Nat}
    (hfinite : format.IsFinite bits) : ∃ number,
      HexNumber.read? (numberText config format bits).toList = some number ∧
      number.negative = format.isNegative bits ∧ number.value = format.value bits ∧
      number.IsTrimmed := by
  rw [numberText,read?_cased]
  exact HexFloat.read?_text hwidth hfinite

theorem numberText_infinite {bits : Nat} (hinfinite : ¬format.IsFinite bits) :
    numberText config format bits = cased config
      (if format.fractionField bits ≠ 0 then "nan"
        else if format.isNegative bits then "-inf" else "inf") := by
  rw [numberText,HexFloat.text_eq,if_pos (not_not.mp hinfinite)]
  split
  · rfl
  · split
    · rfl
    · rfl

theorem bits_eq_of_numberText (htype : floatFormat? type = some (format,suffix)) {value' : String}
    (hvalue : format.Represents value) (hvalue' : format.Represents value')
    (hfinite : format.IsFinite (HexFloat.bitsOf value.toList))
    (hfinite' : format.IsFinite (HexFloat.bitsOf value'.toList))
    (h : literalText config format suffix value = literalText config format suffix value') :
    HexFloat.bitsOf value.toList = HexFloat.bitsOf value'.toList := by
  obtain ⟨hwidth,hsize⟩ := floatFormat?_cases htype
  have small : ∀ {value}, format.Represents value →
      HexFloat.bitsOf value.toList < 2 ^ (format.fractionBits + format.exponentBits + 1) := by
    intro value hvalue
    have hlt := HexFloat.bitsOf_lt hvalue.digits
    rwa [hvalue.length,show 16 = 2 ^ 4 from rfl,← Nat.pow_mul,hsize] at hlt
  have htext : numberText config format (HexFloat.bitsOf value.toList) =
      numberText config format (HexFloat.bitsOf value'.toList) := by
    have hchars := congrArg String.toList h
    simp only [literalText,String.toList_append,List.append_cancel_right_eq] at hchars
    exact String.toList_injective hchars
  obtain ⟨number,hread,hnegative,hnumber,_⟩ := numberText_finite hwidth hfinite
  obtain ⟨number',hread',hnegative',hnumber',_⟩ := numberText_finite hwidth hfinite'
  rw [htext,hread'] at hread
  cases hread
  exact FloatFormat.eq_of_value_eq (small hvalue) (small hvalue') (hnegative.symm.trans hnegative')
    (hnumber.symm.trans hnumber')

/-- A literal that spells all digits of a representation is printed as one text, wherever it stands,
as long as there is room. The text reads as exactly the number represented, with the sign of zero
and without superfluous zeros, or it is one of the words for what is no finite number; different
finite representations have different texts. -/
theorem hexadecimal_floats_are_exact (config : Config) (type : BuiltinType) (format : FloatFormat)
    (suffix : String) (htype : floatFormat? type = some (format,suffix)) :
    (∀ value, format.Represents value →
      (∀ n place s t, s.Sound →
        (Halves.levels config n).print place (.floatLiteral (.builtinType type) value)
          s = .ok () t →
        t.output.text = s.output.text ++ literalText config format suffix value) ∧
      (∀ n place s, s.visits + 2 ≤ config.outputSizeLimit →
        s.output.size + (literalText config format suffix value).length ≤ s.output.limit →
        ∃ t, (Halves.levels config (n + 1)).print place
          (.floatLiteral (.builtinType type) value) s =
          .ok () t) ∧
      (format.IsFinite (HexFloat.bitsOf value.toList) → ∃ number,
        HexNumber.read? (numberText config format (HexFloat.bitsOf value.toList)).toList =
          some number ∧
        number.negative = format.isNegative (HexFloat.bitsOf value.toList) ∧
        number.value = format.value (HexFloat.bitsOf value.toList) ∧ number.IsTrimmed) ∧
      (¬format.IsFinite (HexFloat.bitsOf value.toList) →
        numberText config format (HexFloat.bitsOf value.toList) = cased config
          (if format.fractionField (HexFloat.bitsOf value.toList) ≠ 0 then "nan"
            else if format.isNegative (HexFloat.bitsOf value.toList) then "-inf" else "inf"))) ∧
    ∀ value value', format.Represents value → format.Represents value' →
      format.IsFinite (HexFloat.bitsOf value.toList) →
      format.IsFinite (HexFloat.bitsOf value'.toList) →
      HexFloat.bitsOf value.toList ≠ HexFloat.bitsOf value'.toList →
      literalText config format suffix value ≠ literalText config format suffix value' := by
  refine ⟨fun value hvalue => ⟨?_,?_,?_,numberText_infinite⟩,?_⟩
  · intro n place s t hs ht
    exact ((floatLiteral_spelling htype hvalue n place).known hs ht).2
  · intro n place s hvisits hroom
    exact floatLiteral_ok htype hvalue n place hvisits hroom
  · exact numberText_finite (floatFormat?_cases htype).1
  · intro value value' hvalue hvalue' hfinite hfinite' hne hsame
    exact hne (bits_eq_of_numberText htype hvalue hvalue' hfinite hfinite' hsame)

theorem halves_literal : FloatFormat.binary64.Represents "3ff8000000000000" where
  length := by decide
  digits := List.all_eq_true.mp (by decide +kernel)

/-- One and a half, as a `double`. -/
theorem hexadecimal_floats_are_exact_halves :
    floatFormat? .double = some (.binary64,"") ∧
      FloatFormat.binary64.Represents "3ff8000000000000" ∧
      literalText .standard .binary64 "" "3ff8000000000000" = "0x1.8p+0" ∧
      ∃ number, HexNumber.read? "0x1.8p+0".toList = some number ∧ number.negative = false ∧
        number.value = 3 / 2 ∧ number.IsTrimmed := by
  have hbits : HexFloat.bitsOf "3ff8000000000000".toList = 0x3ff8000000000000 := by decide +kernel
  have htext : numberText .standard .binary64 0x3ff8000000000000 = "0x1.8p+0" := by decide +kernel
  have hfinite : FloatFormat.binary64.IsFinite 0x3ff8000000000000 := by
    unfold FloatFormat.IsFinite
    decide +kernel
  have hnegative : FloatFormat.binary64.isNegative 0x3ff8000000000000 = false := by decide +kernel
  have hvalue : FloatFormat.binary64.value 0x3ff8000000000000 = 3 / 2 := by
    have hexponent :
      FloatFormat.binary64.exponentField 0x3ff8000000000000 = 1023 := by decide +kernel
    have hfraction :
      FloatFormat.binary64.fractionField 0x3ff8000000000000 = 2 ^ 51 := by decide +kernel
    have hbias : FloatFormat.binary64.bias = 1023 := by decide +kernel
    rw [FloatFormat.value,hnegative,FloatFormat.magnitude,hexponent,hfraction,hbias]
    norm_num [FloatFormat.binary64]
  have hnumber := ((hexadecimal_floats_are_exact .standard .double .binary64 "" rfl).1 _
    halves_literal).2.2.1
  rw [hbits,htext,hnegative,hvalue] at hnumber
  refine ⟨rfl,halves_literal,?_,hnumber hfinite⟩
  rw [literalText,hbits,htext]
  rfl

end Printing

end MangledNames
