import MangledNames.Fault
set_option autoImplicit false

/-!
A place in a text, from which characters are read one after the other. Everything that reads looks
only at what lies ahead; what was passed serves the offsets of errors and the way back.
-/

namespace MangledNames

/-- ASCII digits only: other scripts spell no numbers here. -/
def isDigit (c : Char) : Bool := '0' ≤ c && c ≤ '9'

def isLower (c : Char) : Bool := 'a' ≤ c && c ≤ 'z'

structure Cursor where
  passed : List Char
  rest : List Char
  deriving DecidableEq, Repr

/-- Reading from a cursor. A failed read keeps the place where it stopped. -/
abbrev Scan := EStateM Fault Cursor

namespace Cursor

def start (text : List Char) : Cursor := ⟨[], text⟩

def text (c : Cursor) : List Char := c.passed.reverse ++ c.rest

def position (c : Cursor) : Nat := c.passed.length

def length (c : Cursor) : Nat := c.passed.length + c.rest.length

def advance : Nat → Cursor → Cursor
  | 0, c => c
  | _ + 1, ⟨passed, []⟩ => ⟨passed, []⟩
  | n + 1, ⟨passed, x :: rest⟩ => advance n ⟨x :: passed, rest⟩

def advance? : Nat → Cursor → Option Cursor
  | 0, c => some c
  | _ + 1, ⟨_, []⟩ => none
  | n + 1, ⟨passed, x :: rest⟩ => advance? n ⟨x :: passed, rest⟩

def skip? : List Char → Cursor → Option Cursor
  | [], c => some c
  | _ :: _, ⟨_, []⟩ => none
  | l :: literal, ⟨passed, x :: rest⟩ =>
    if l = x then skip? literal ⟨x :: passed, rest⟩ else none

def skipUntil? (delimiter : List Char) (before : List Char) : Cursor → Option (List Char × Cursor)
  | ⟨passed, rest⟩ =>
    match skip? delimiter ⟨passed, rest⟩ with
    | some after => some (before.reverse, after)
    | none =>
      match rest with
      | [] => none
      | x :: rest => skipUntil? delimiter (x :: before) ⟨x :: passed, rest⟩
  termination_by c => c.rest.length

def back : Nat → Cursor → Cursor
  | 0, c => c
  | _ + 1, ⟨[], rest⟩ => ⟨[], rest⟩
  | n + 1, ⟨x :: passed, rest⟩ => back n ⟨passed, x :: rest⟩

def at? (text : List Char) (offset : Int) : Option Cursor :=
  if offset < 0 then none else advance? offset.toNat (start text)

def startsWith (c : Cursor) (literal : String) : Bool := literal.toList.isPrefixOf c.rest

def unexpectedAt (c : Cursor) (production : String) : DemangleError :=
  match c.rest with
  | [] => .unexpectedEnd production c.position
  | x :: _ => .unexpectedToken production c.position (String.singleton x)

def fail {α : Type} (error : DemangleError) : Scan α := throw (.error error)

def unexpected {α : Type} (production : String) : Scan α := do
  fail ((← get).unexpectedAt production)

def atEnd : Scan Bool := return (← get).rest.isEmpty

def peek (distance : Nat := 0) : Scan (Option Char) := return (← get).rest[distance]?

def peekIs (ofClass : Char → Bool) (distance : Nat := 0) : Scan Bool :=
  return ((← get).rest[distance]?).any ofClass

def lookingAt (literal : String) : Scan Bool := return (← get).startsWith literal

def consume (literal : String) : Scan Bool := do
  match skip? literal.toList (← get) with
  | some after =>
    set after
    return true
  | none => return false

def consumeAny : List String → Scan Bool
  | [] => return false
  | literal :: others => do
    if ← consume literal then return true
    consumeAny others

def expect (literal production : String) : Scan Unit := do
  unless ← consume literal do unexpected production

def next (production : String) : Scan Char := do
  match ← get with
  | ⟨passed, x :: rest⟩ =>
    set (⟨x :: passed, rest⟩ : Cursor)
    return x
  | c => fail (.unexpectedEnd production c.position)

/-- Reads `n` characters. If fewer are left it reads none. -/
def takeChars (n : Nat) (production : String) : Scan (List Char) := do
  let c ← get
  match advance? n c with
  | some after =>
    set after
    return (after.passed.take n).reverse
  | none => fail (.unexpectedEnd production c.length)

def takeCode (production : String) : Scan (Char × Char) := do
  match ← get with
  | ⟨passed, a :: b :: rest⟩ =>
    set (⟨b :: a :: passed, rest⟩ : Cursor)
    return (a, b)
  | c => fail (.unexpectedEnd production c.length)

def take (count : Int) (production : String) : Scan (List Char) :=
  if count < 0 then throw (.broken .countNatural) else takeChars count.toNat production

def takeUntil (delimiter production : String) : Scan (List Char) := do
  let c ← get
  match skipUntil? delimiter.toList [] c with
  | some (before, after) =>
    set after
    return before
  | none => fail (.unexpectedEnd production c.length)

def digits (production : String) : Scan (List Char) := do
  let c ← get
  match c.rest.takeWhile isDigit with
  | [] => unexpected production
  | found =>
    set (advance found.length c)
    return found

def digitValue (c : Char) : Nat :=
  if isDigit c then c.toNat - '0'.toNat else c.toNat - 'A'.toNat + 10

def numeral (base : Nat) (digits : List Char) : Nat :=
  digits.foldl (fun value c => value * base + digitValue c) 0

/-- No number of a symbol needs more digits. -/
def numberDigitsMax : Nat := 20

def unsigned (production : String) : Scan Nat := do
  let c ← get
  let found ← digits production
  if found.length > numberDigitsMax then
    fail (.unexpectedToken s!"{production} (at most {numberDigitsMax} digits)" c.position
      (String.ofList (found.take 1)))
  return numeral 10 found

def number (production : String) : Scan Int := do
  let negative ← consume "n"
  let value ← unsigned production
  return if negative then -(value : Int) else value

def checkpoint : Scan Nat := return (← get).position

def restore (checkpoint : Int) : Scan Unit := do
  let c ← get
  if 0 ≤ checkpoint ∧ checkpoint ≤ c.position then
    set (back (c.position - checkpoint.toNat) c)
  else throw (.broken .checkpointBehind)

end Cursor

end MangledNames
