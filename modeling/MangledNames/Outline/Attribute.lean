import MangledNames.Character.Printable
import MangledNames.Node.Fields
set_option autoImplicit false

/-!
The text of attributes in outlines. Texts stand in quotes, and what does not show is escaped.
-/

namespace MangledNames

namespace Quoted

def hexDigits (width n : Nat) : List Char :=
  let digits := Nat.toDigits 16 n
  List.replicate (width - digits.length) '0' ++ digits

def escape : Char → List Char
  | '\n' => ['\\', 'n']
  | '\r' => ['\\', 'r']
  | '\t' => ['\\', 't']
  | c =>
    if c.toNat < 0x100 then '\\' :: 'x' :: hexDigits 2 c.toNat
    else if c.toNat < 0x10000 then '\\' :: 'u' :: hexDigits 4 c.toNat
    else '\\' :: 'U' :: hexDigits 8 c.toNat

/-- Single quotes, or double ones around a text that has only single ones. -/
def quoteOf (text : List Char) : Char :=
  if text.contains '\x27' && !text.contains '"' then '"' else '\x27'

def character (quote c : Char) : List Char :=
  if c = quote ∨ c = '\\' then ['\\', c]
  else if Character.isPrintable c then [c]
  else escape c

def ofText (text : String) : String :=
  let quote := quoteOf text.toList
  String.ofList (quote :: text.toList.flatMap (character quote) ++ [quote])

end Quoted

def tupleText : List String → String
  | [] => "()"
  | [value] => "(" ++ value ++ ",)"
  | values => "(" ++ ", ".intercalate values ++ ")"

def memberText (enumeration name value : String) : String :=
  "<" ++ enumeration ++ "." ++ name ++ ": " ++ value ++ ">"

/-- The qualifiers by name, and the sum of one for `restrict`, two for `volatile` and four for
`const`. -/
def CvQualifiers.outlineText (cv : CvQualifiers) : String :=
  let names :=
    (if cv.restrict then ["RESTRICT"] else []) ++ (if cv.volatile then ["VOLATILE"] else [])
    ++ (if cv.const then ["CONST"] else [])
  let value := cv.restrict.toNat + 2 * cv.volatile.toNat + 4 * cv.const.toNat
  memberText "CvQualifiers" (if cv.isEmpty then "NONE" else "|".intercalate names) (toString value)

def OperatorKind.outlineText (kind : OperatorKind) : String :=
  let (name, value) := match kind with
    | .prefixOp => ("PREFIX", "1")
    | .postfixOp => ("POSTFIX", "2")
    | .binary => ("BINARY", "3")
    | .conditional => ("CONDITIONAL", "4")
    | .call => ("CALL", "5")
    | .index => ("INDEX", "6")
    | .member => ("MEMBER", "7")
    | .new => ("NEW", "8")
    | .delete => ("DELETE", "9")
  memberText "OperatorKind" name value

def Operator.outlineText (operator : Operator) : String :=
  "Operator(code=" ++ Quoted.ofText (Code.text operator.code) ++ ", symbol="
    ++ Quoted.ofText operator.symbol ++ ", kind=" ++ operator.kind.outlineText ++ ")"

def optionText : Option String → String
  | none => "None"
  | some value => value

def CallOffset.outlineText (offset : CallOffset) : String :=
  "CallOffset(offset=" ++ toString offset.offset ++ ", virtual_offset="
    ++ optionText (offset.virtualOffset.map toString) ++ ")"

def Attribute.outlineText : Attribute → String
  | .absent => optionText none
  | .flag true => "True"
  | .flag false => "False"
  | .number value => toString value
  | .text value => Quoted.ofText value
  | .texts values => tupleText (values.map Quoted.ofText)
  | .member enumeration name value => memberText enumeration name value
  | .cv value => value.outlineText
  | .operator value => value.outlineText
  | .offsets values => tupleText (values.map CallOffset.outlineText)

end MangledNames
