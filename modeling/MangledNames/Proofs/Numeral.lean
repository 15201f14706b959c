import Mathlib.Data.Nat.Digits.Lemmas
import MangledNames.Grammar.Lexeme
set_option autoImplicit false

/-!
Numbers as symbols spell them, most significant digit first, and what reading their digits gives.
-/

namespace MangledNames

open Cursor

def digitChar (d : Nat) : Char :=
  if d < 10 then Char.ofNat ('0'.toNat + d) else Char.ofNat ('A'.toNat + (d - 10))

/-- A number in some base, without leading zeros. -/
def spelled (base n : Nat) : List Char :=
  if n = 0 then ['0'] else ((Nat.digits base n).map digitChar).reverse

theorem digitValue_digitChar {d : Nat} (h : d < 36) : digitValue (digitChar d) = d := by
  revert d
  decide

theorem isDigit_digitChar {d : Nat} (h : d < 10) : isDigit (digitChar d) = true := by
  revert d
  decide

theorem isSeqDigit_digitChar {d : Nat} (h : d < 36) : Grammar.isSeqDigit (digitChar d) = true := by
  revert d
  decide

section
variable {base : Nat}

theorem mem_spelled (hb : 1 < base) {n : Nat} {c : Char} (h : c ∈ spelled base n) :
    ∃ d, d < base ∧ c = digitChar d := by
  unfold spelled at h
  split at h
  · obtain rfl := List.mem_singleton.mp h
    exact ⟨0,by omega,rfl⟩
  · obtain ⟨d,hd,rfl⟩ := List.mem_map.mp (List.mem_reverse.mp h)
    exact ⟨d,Nat.digits_lt_base hb hd,rfl⟩

theorem spelled_ne_nil (n : Nat) : spelled base n ≠ [] := by
  unfold spelled
  split
  · simp
  · rename_i hn
    simpa [Nat.digits_eq_nil_iff_eq_zero] using hn

theorem numeral_spelled (hb : 1 < base) (hb' : base ≤ 36) (n : Nat) :
    numeral base (spelled base n) = n := by
  have digits : ∀ ds : List Nat, (∀ d ∈ ds, d < base) →
      numeral base ((ds.map digitChar).reverse) = Nat.ofDigits base ds := by
    intro ds hds
    induction ds with
    | nil => rfl
    | cons d ds ih =>
      rw [List.forall_mem_cons] at hds
      have htail := ih hds.2
      unfold numeral at htail ⊢
      have hd : digitValue (digitChar d) = d := digitValue_digitChar (by omega)
      simp only [List.map_cons,List.reverse_cons,List.foldl_append,List.foldl_cons,List.foldl_nil]
      rw [htail,hd,Nat.ofDigits_cons]
      ring
  unfold spelled
  split
  · rename_i hn
    have hzero : digitValue '0' = 0 := by decide
    simp [hn,numeral,hzero]
  · rw [digits _ fun d hd => Nat.digits_lt_base hb hd,Nat.ofDigits_digits]

end

theorem isDigit_spelled (n : Nat) : ∀ c ∈ spelled 10 n, isDigit c = true := by
  intro c hc
  obtain ⟨d,hd,rfl⟩ := mem_spelled (by decide) hc
  exact isDigit_digitChar hd

theorem isSeqDigit_spelled (n : Nat) : ∀ c ∈ spelled 36 n, Grammar.isSeqDigit c = true := by
  intro c hc
  obtain ⟨d,hd,rfl⟩ := mem_spelled (by decide) hc
  exact isSeqDigit_digitChar hd

/-- Numbers below a power of the base need no more digits than its exponent. -/
theorem spelled_length_le {base n k : Nat} (hb : 1 < base) (hk : 0 < k) (h : n < base ^ k) :
    (spelled base n).length ≤ k := by
  unfold spelled
  split
  · exact hk
  · rw [List.length_reverse,List.length_map]
    exact (Nat.digits_length_le_iff hb n).mpr h

theorem spelled_head (base n : Nat) (hb : 1 < base) :
    ∃ d digits, d < base ∧ spelled base n = digitChar d :: digits := by
  cases hs : spelled base n with
  | nil => exact absurd hs (spelled_ne_nil n)
  | cons c digits =>
    obtain ⟨d,hd,rfl⟩ := mem_spelled hb (show c ∈ spelled base n by rw [hs]; exact .head _)
    exact ⟨d,digits,hd,rfl⟩

section
variable {base : Nat}

theorem numeral_concat (digits : List Char) (c : Char) :
    numeral base (digits ++ [c]) = numeral base digits * base + digitValue c := by
  simp [numeral]

theorem numeral_append (a b : List Char) :
    numeral base (a ++ b) = numeral base a * base ^ b.length + numeral base b := by
  induction b using List.reverseRecOn with
  | nil => simp [numeral]
  | append_singleton b c ih =>
    rw [← List.append_assoc,numeral_concat,ih,numeral_concat,List.length_append,
      List.length_singleton]
    ring

/-- One more digit behind those of a number that is not zero. -/
theorem spelled_concat (hb : 1 < base) {n d : Nat} (hn : n ≠ 0) (hd : d < base) :
    spelled base (n * base + d) = spelled base n ++ [digitChar d] := by
  have hpos : 0 < n * base := Nat.mul_pos (Nat.pos_of_ne_zero hn) (by omega)
  have hdigits : Nat.digits base (n * base + d) = d :: Nat.digits base n := by
    rw [Nat.add_comm,Nat.mul_comm]
    exact Nat.digits_add base hb d n hd (.inr hn)
  simp only [spelled,if_neg hn,if_neg (show n * base + d ≠ 0 by omega),hdigits,List.map_cons,
    List.reverse_cons]

theorem spelled_digit {d : Nat} (hd : d < base) : spelled base d = [digitChar d] := by
  unfold spelled
  split
  · rename_i hzero
    rw [hzero]
    rfl
  · rename_i hd0
    rw [Nat.digits_of_lt base d hd0 hd]
    rfl

end

theorem digitChar_digitValue {c : Char} (h : Grammar.isSeqDigit c = true) :
    digitValue c < 36 ∧ digitChar (digitValue c) = c := by
  have hrange : c.toNat < 128 := by
    simp only [Grammar.isSeqDigit,isDigit,Bool.or_eq_true,Bool.and_eq_true,decide_eq_true_eq] at h
    have h9 : '9'.toNat = 57 := rfl
    have hZ : 'Z'.toNat = 90 := rfl
    rcases h with h | h
    · have hle : c.toNat ≤ '9'.toNat := h.2
      omega
    · have hle : c.toNat ≤ 'Z'.toNat := h.2
      omega
  have hall : ∀ n < 128, Grammar.isSeqDigit (Char.ofNat n) = true →
      digitValue (Char.ofNat n) < 36 ∧
      digitChar (digitValue (Char.ofNat n)) = Char.ofNat n := by decide
  have hc := hall c.toNat hrange
  rw [Char.ofNat_toNat] at hc
  exact hc h

/-- Digits of base 36 are zeros in front of the spelling of their number. -/
theorem seqDigits_eq {digits : List Char} (hne : digits ≠ [])
    (h : ∀ c ∈ digits, Grammar.isSeqDigit c = true) :
    ∃ zeros, digits = List.replicate zeros '0' ++ spelled 36 (numeral 36 digits) := by
  induction digits using List.reverseRecOn with
  | nil => exact absurd rfl hne
  | append_singleton digits c ih =>
    obtain ⟨hc,hchar⟩ := digitChar_digitValue (h c (by simp))
    rw [numeral_concat]
    by_cases hdigits : digits = []
    · refine ⟨0,?_⟩
      subst hdigits
      simp [numeral,spelled_digit hc,hchar]
    · obtain ⟨zeros,hzeros⟩ := ih hdigits fun d hd => h d (by simp [hd])
      by_cases hn : numeral 36 digits = 0
      · refine ⟨zeros + 1,?_⟩
        rw [hn] at hzeros ⊢
        rw [Nat.zero_mul,Nat.zero_add,spelled_digit hc,hchar,List.replicate_succ',hzeros]
        rfl
      · refine ⟨zeros,?_⟩
        rw [spelled_concat (by decide) hn hc,hchar,← List.append_assoc,← hzeros]

end MangledNames
