set_option autoImplicit false

/-!
JSON text. Values keep the order and the repetitions of keys, and the difference between integers
and numbers with a fraction or an exponent.
-/

namespace MangledNames

namespace Json

inductive Value where
  | null
  | bool (value : Bool)
  | integer (value : Int)
  /-- `digits` times ten to the `exponent`. -/
  | decimal (digits exponent : Int)
  | notFinite
  | string (value : String)
  | array (items : List Value)
  | object (members : List (String × Value))

/-- The value of a key; of repeated keys the last one counts. -/
def Value.get? (key : String) : Value → Option Value
  | .object members => (members.reverse.find? (·.1 == key)).map (·.2)
  | _ => none

abbrev Reader := StateT (List Char) Option

def isBlank (c : Char) : Bool := c == ' ' || c == '\t' || c == '\n' || c == '\r'

def isDigit (c : Char) : Bool := '0' ≤ c && c ≤ '9'

def blank : Reader Unit := modify (·.dropWhile isBlank)

def mark (c : Char) : Reader Unit := do
  match ← get with
  | x :: rest => if x = c then set rest else failure
  | [] => failure

def word (text : String) : Reader Unit := do
  let rest ← get
  if text.toList.isPrefixOf rest then set (rest.drop text.length) else failure

def hexValue? (c : Char) : Option Nat :=
  if isDigit c then some (c.toNat - '0'.toNat)
  else if 'a' ≤ c ∧ c ≤ 'f' then some (c.toNat - 'a'.toNat + 10)
  else if 'A' ≤ c ∧ c ≤ 'F' then some (c.toNat - 'A'.toNat + 10)
  else none

def unit? (a b c d : Char) : Option Nat := do
  return (((← hexValue? a) * 16 + (← hexValue? b)) * 16 + (← hexValue? c)) * 16 + (← hexValue? d)

def escape? : Char → Option Char
  | '"' => some '"'
  | '\\' => some '\\'
  | '/' => some '/'
  | 'b' => some '\x08'
  | 'f' => some '\x0c'
  | 'n' => some '\n'
  | 'r' => some '\r'
  | 't' => some '\t'
  | _ => none

def isHighSurrogate (unit : Nat) : Bool := 0xD800 ≤ unit && unit < 0xDC00
def isLowSurrogate (unit : Nat) : Bool := 0xDC00 ≤ unit && unit < 0xE000

def characters (found : List Char) : List Char → Option (List Char × List Char)
  | [] => none
  | '"' :: rest => some (found.reverse, rest)
  | '\\' :: 'u' :: a :: b :: c :: d :: rest => do
    let unit ← unit? a b c d
    if isHighSurrogate unit then
      match rest with
      | '\\' :: 'u' :: a :: b :: c :: d :: rest => do
        let low ← unit? a b c d
        if isLowSurrogate low then
          let number := 0x10000 + (unit - 0xD800) * 0x400 + (low - 0xDC00)
          characters (Char.ofNat number :: found) rest
        else none
      | _ => none
    else if isLowSurrogate unit then none
    else characters (Char.ofNat unit :: found) rest
  | '\\' :: c :: rest => do characters ((← escape? c) :: found) rest
  | c :: rest => if c.toNat < 0x20 then none else characters (c :: found) rest

def string : Reader String := do
  mark '"'
  match characters [] (← get) with
  | some (found, rest) =>
    set rest
    return String.ofList found
  | none => failure

def digits : Reader (List Char) := do
  let rest ← get
  match rest.takeWhile isDigit with
  | [] => failure
  | found =>
    set (rest.drop found.length)
    return found

def numeral (digits : List Char) : Nat :=
  digits.foldl (fun value c => value * 10 + (c.toNat - '0'.toNat)) 0

def optional (c : Char) : Reader Bool := do
  match ← get with
  | x :: rest =>
    if x = c then
      set rest
      return true
    else return false
  | [] => return false

def exponent? : Reader (Option Int) := do
  unless (← get).head?.any fun c => c == 'e' || c == 'E' do return none
  modify (·.drop 1)
  let negative ← optional '-'
  unless negative do
    let _ ← optional '+'
  let value := (numeral (← digits) : Int)
  return some (if negative then -value else value)

def number : Reader Value := do
  let negative ← optional '-'
  if (← get).head? == some 'I' then
    word "Infinity"
    return .notFinite
  let whole ← digits
  if whole.length > 1 && whole.head? == some '0' then failure
  let fraction ← if ← optional '.' then some <$> digits else pure none
  let exponent ← exponent?
  let spelled := (numeral (whole ++ fraction.getD []) : Int)
  let signed := if negative then -spelled else spelled
  match fraction, exponent with
  | none, none => return .integer signed
  | fraction, exponent => return .decimal signed (exponent.getD 0 - (fraction.getD []).length)

/-- Items with commas between them, up to the closing mark. No more of them are read than there
are characters in `bound`. -/
def items {α : Type} (closing : Char) (item : Reader α) (found : List α) :
    List Char → Reader (List α)
  | [] => failure
  | _ :: bound => do
    let found := (← item) :: found
    blank
    if ← optional ',' then items closing item found bound
    else
      mark closing
      return found.reverse

def list {α : Type} (opening closing : Char) (item : Reader α) : Reader (List α) := do
  mark opening
  blank
  if ← optional closing then return []
  items closing item [] (← get)

def member (value : Reader Value) : Reader (String × Value) := do
  blank
  let key ← string
  blank
  mark ':'
  return (key, ← value)

/-- A value whose items and members, if it may have any, are read by `inner`. -/
def valueOver (inner : Option (Reader Value)) : Reader Value := do
  blank
  match ← get, inner with
  | '"' :: _, _ => .string <$> string
  | '[' :: _, some inner => .array <$> list '[' ']' inner
  | '\x7b' :: _, some inner => .object <$> list '\x7b' '\x7d' (member inner)
  | 't' :: _, _ => do
    word "true"
    return .bool true
  | 'f' :: _, _ => do
    word "false"
    return .bool false
  | 'n' :: _, _ => do
    word "null"
    return .null
  | 'N' :: _, _ => do
    word "NaN"
    return .notFinite
  | 'I' :: _, _ => do
    word "Infinity"
    return .notFinite
  | _, _ => number

def value : Nat → Reader Value
  | 0 => valueOver none
  | depth + 1 => valueOver (some (value depth))

def depthMax : Nat := 200

def read? (text : String) : Option Value :=
  match (value depthMax).run text.toList with
  | some (value, rest) => if rest.all isBlank then some value else none
  | none => none

end Json

end MangledNames
