set_option autoImplicit false

/-!
UTF-8 text that may be damaged: what is no character becomes a replacement character, one for each
longest beginning of a character, and one for each other byte.
-/

namespace MangledNames.Utf8

structure Pending where
  value : Nat
  others : Nat
  low : Nat := 0x80
  high : Nat := 0xBF

def replacement : Char := '\uFFFD'

/-- What the first of several bytes announces. The ranges leave out surrogates, numbers above the
last character, and characters that need fewer bytes. -/
def announced? (byte : Nat) : Option Pending :=
  if 0xC2 ≤ byte ∧ byte ≤ 0xDF then some { value := byte - 0xC0, others := 0 }
  else if byte = 0xE0 then some { value := 0, others := 1, low := 0xA0 }
  else if byte = 0xED then some { value := 0xD, others := 1, high := 0x9F }
  else if 0xE1 ≤ byte ∧ byte ≤ 0xEF then some { value := byte - 0xE0, others := 1 }
  else if byte = 0xF0 then some { value := 0, others := 2, low := 0x90 }
  else if byte = 0xF4 then some { value := 4, others := 2, high := 0x8F }
  else if 0xF1 ≤ byte ∧ byte ≤ 0xF3 then some { value := byte - 0xF0, others := 2 }
  else none

def first (byte : Nat) : List Char × Option Pending :=
  if byte < 0x80 then ([Char.ofNat byte], none)
  else match announced? byte with
    | some pending => ([], some pending)
    | none => ([replacement], none)

def step : Option Pending → Nat → List Char × Option Pending
  | none, byte => first byte
  | some pending, byte =>
    if pending.low ≤ byte ∧ byte ≤ pending.high then
      let value := pending.value * 64 + (byte - 0x80)
      match pending.others with
      | 0 => ([Char.ofNat value], none)
      | others + 1 => ([], some { value := value, others := others })
    else
      let (found, pending) := first byte
      (replacement :: found, pending)

def decodeFrom (found : List Char) : Option Pending → List UInt8 → List Char
  | none, [] => found.reverse
  | some _, [] => (replacement :: found).reverse
  | pending, byte :: bytes =>
    let (completed, pending) := step pending byte.toNat
    decodeFrom (completed.reverse ++ found) pending bytes

def decode (bytes : List UInt8) : String := String.ofList (decodeFrom [] none bytes)

end MangledNames.Utf8
