set_option autoImplicit false

/-!
Binary floating point numbers written exactly, with a hexadecimal fraction and a power of two.
A number is written as the equal number of the widest format here, so all normal ones of the
narrower format start with `1`, and so do its subnormal ones.
-/

namespace MangledNames

/-- A binary interchange format: a sign bit, then exponent and fraction. -/
structure FloatFormat where
  exponentBits : Nat
  fractionBits : Nat
  deriving DecidableEq, Repr

namespace FloatFormat

def binary32 : FloatFormat := ⟨8, 23⟩
def binary64 : FloatFormat := ⟨11, 52⟩

def bias (format : FloatFormat) : Nat := Nat.pow 2 (format.exponentBits - 1) - 1

def hexDigits (format : FloatFormat) : Nat := (1 + format.exponentBits + format.fractionBits) / 4

end FloatFormat

namespace HexFloat

def isDigit (c : Char) : Bool := c.isDigit || ('a' ≤ c && c ≤ 'f') || ('A' ≤ c && c ≤ 'F')

def digitValue (c : Char) : Nat :=
  if '0' ≤ c ∧ c ≤ '9' then c.toNat - '0'.toNat
  else if 'a' ≤ c ∧ c ≤ 'f' then c.toNat - 'a'.toNat + 10
  else c.toNat - 'A'.toNat + 10

def bitsOf (digits : List Char) : Nat := digits.foldl (fun bits c => bits * 16 + digitValue c) 0

def bitsOf? (text : List Char) : Option Nat := if text.all isDigit then some (bitsOf text) else none

def hexDigitsOf : Nat → Nat → List Char
  | 0, _ => []
  | width + 1, n => hexDigitsOf width (n / 16) ++ [Nat.digitChar (n % 16)]

/-- A fraction of 52 bits after its point, without trailing zeros. -/
def fractionText (fraction : Nat) : List Char :=
  match ((hexDigitsOf 13 fraction).reverse.dropWhile (· == '0')).reverse with
  | [] => []
  | digits => '.' :: digits

def exponentText (exponent : Int) : List Char :=
  match exponent with
  | .ofNat n => 'p' :: '+' :: Nat.toDigits 10 n
  | .negSucc n => 'p' :: '-' :: Nat.toDigits 10 (n + 1)

def magnitudeText (lead : Char) (fraction : Nat) (exponent : Int) : List Char :=
  '0' :: 'x' :: lead :: fractionText fraction ++ exponentText exponent

/-- The text of the magnitude with these exponent and fraction fields, if it is finite. -/
def finiteText (format : FloatFormat) (exponentField fraction : Nat) : List Char :=
  let widened := fraction * Nat.pow 2 (52 - format.fractionBits)
  if exponentField ≠ 0 then
    magnitudeText '1' widened ((exponentField : Int) - format.bias)
  else if fraction = 0 then magnitudeText '0' 0 0
  else if format.fractionBits < 52 then
    -- a subnormal number of the narrower format is a normal one of the wider
    let top := Nat.log2 fraction
    magnitudeText '1' ((fraction - Nat.pow 2 top) * Nat.pow 2 (52 - top))
      ((top : Int) - format.bias - format.fractionBits + 1)
  else magnitudeText '0' widened (1 - (format.bias : Int))

def text (format : FloatFormat) (bits : Nat) : List Char :=
  let fraction := bits % Nat.pow 2 format.fractionBits
  let exponentField := bits / Nat.pow 2 format.fractionBits % Nat.pow 2 format.exponentBits
  let negative := bits / Nat.pow 2 (format.fractionBits + format.exponentBits) % 2 = 1
  if exponentField = Nat.pow 2 format.exponentBits - 1 then
    if fraction ≠ 0 then "nan".toList
    else if negative then "-inf".toList else "inf".toList
  else if negative then '-' :: finiteText format exponentField fraction
  else finiteText format exponentField fraction

end HexFloat

end MangledNames
