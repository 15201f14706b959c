set_option autoImplicit false

/-!
Decimal numbers as the nearest binary floating point number with 53 significant bits sees them.
-/

namespace MangledNames.Binary64

/-- A quotient rounded to the nearest natural number, a half to the even one. -/
def roundDiv (num den : Nat) : Nat :=
  let quotient := num / den
  let rest := num % den
  if 2 * rest < den then quotient
  else if den < 2 * rest then quotient + 1
  else quotient + quotient % 2

def scaled (num den : Nat) (shift : Int) : Nat :=
  match shift with
  | .ofNat n => roundDiv (num * Nat.pow 2 n) den
  | .negSucc n => roundDiv num (den * Nat.pow 2 (n + 1))

def exponentOf (num den : Nat) : Int :=
  let estimate := (num.log2 : Int) - den.log2
  let reached := match estimate with
    | .ofNat n => decide (den * Nat.pow 2 n ≤ num)
    | .negSucc n => decide (den ≤ num * Nat.pow 2 (n + 1))
  if reached then estimate else estimate - 1

/-- A number of the format: infinite, or a significand times a power of two. -/
inductive Magnitude where
  | infinite
  | finite (significand : Nat) (exponent : Int)
  deriving DecidableEq, Repr

def nearest (num den : Nat) : Magnitude :=
  let fitting := exponentOf num den - 52
  let exponent := if fitting < -1074 then -1074 else fitting
  let significand := scaled num den (-exponent)
  if exponent > 971 ∨ (exponent = 971 ∧ Nat.pow 2 53 ≤ significand) then .infinite
  else .finite significand exponent

/-- The number nearest to `digits * 10 ^ exponent`. -/
def ofDecimal (digits : Nat) (exponent : Int) : Magnitude :=
  let length := (Nat.toDigits 10 digits).length
  if digits = 0 ∨ exponent + length < -400 then .finite 0 0
  else if exponent + length > 400 then .infinite
  else match exponent with
    | .ofNat n => nearest (digits * Nat.pow 10 n) 1
    | .negSucc n => nearest digits (Nat.pow 10 (n + 1))

def Magnitude.whole? : Magnitude → Option Nat
  | .infinite => none
  | .finite significand (.ofNat n) => some (significand * Nat.pow 2 n)
  | .finite significand (.negSucc n) =>
    if significand % Nat.pow 2 (n + 1) = 0 then some (significand / Nat.pow 2 (n + 1)) else none

end MangledNames.Binary64
