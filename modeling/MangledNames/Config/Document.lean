import MangledNames.Binary64
import MangledNames.Character.Digit
import MangledNames.Character.Space
import MangledNames.Config
import MangledNames.Json
set_option autoImplicit false

/-!
Configurations in JSON documents. A value may also be spelled as a text or number that plainly
means it: `"yes"` and `1` for a truth value, `"12"` and `12.0` for an integer.
-/

namespace MangledNames

namespace Config

inductive Issue where
  | boolParsing
  | boolType
  | intParsing
  | intParsingSize
  | intType
  | intFromFloat
  | finiteNumber
  | greaterThanEqual
  | lessThanEqual
  | literalError
  | modelType
  | jsonInvalid
  deriving DecidableEq, Repr

def Issue.name : Issue → String
  | boolParsing => "bool_parsing"
  | boolType => "bool_type"
  | intParsing => "int_parsing"
  | intParsingSize => "int_parsing_size"
  | intType => "int_type"
  | intFromFloat => "int_from_float"
  | finiteNumber => "finite_number"
  | greaterThanEqual => "greater_than_equal"
  | lessThanEqual => "less_than_equal"
  | literalError => "literal_error"
  | modelType => "model_type"
  | jsonInvalid => "json_invalid"

structure Detail where
  field : String
  issue : Issue
  deriving DecidableEq, Repr

def bound64 : Int := 0x8000000000000000

/-- Integers of 64 bits, as which numbers with a fraction or exponent are read. -/
def fits64 (n : Int) : Bool := -bound64 < n && n < bound64

def wholeOf (digits exponent : Int) : Except Issue Int :=
  match Binary64.ofDecimal digits.natAbs exponent with
  | .infinite => .error .finiteNumber
  | magnitude =>
    match magnitude.whole? with
    | none => .error .intFromFloat
    | some n =>
      let signed := if digits < 0 then -(n : Int) else n
      if fits64 signed then .ok signed else .error .intParsingSize

def boolOfText (text : String) : Except Issue Bool :=
  let lower := text.map Char.toLower
  if lower ∈ ["0", "off", "f", "false", "n", "no"] then .ok false
  else if lower ∈ ["1", "on", "t", "true", "y", "yes"] then .ok true
  else .error .boolParsing

def boolOfInt : Int → Except Issue Bool
  | 0 => .ok false
  | 1 => .ok true
  | _ => .error .boolParsing

def boolOf : Json.Value → Except Issue Bool
  | .bool value => .ok value
  | .string text => boolOfText text
  | .integer n =>
    if -bound64 ≤ n ∧ n < bound64 then boolOfInt n else .error .boolType
  | .decimal digits exponent =>
    match wholeOf digits exponent with
    | .ok n => boolOfInt n
    | .error _ => .error .boolType
  | _ => .error .boolType

/-- Digits without their leading zeros, between which `_` may stand; the last one stays if no
other digit follows. -/
def withoutLeadingZeros (text : List Char) : List Char :=
  if text.head? != some '0' then text
  else
    let isFiller (c : Char) : Bool := c == '0' || c == '_'
    let rest := text.dropWhile isFiller
    if rest.head?.any Json.isDigit then rest
    else (text.takeWhile isFiller).getLast?.toList ++ rest

def withoutZeroFraction (text : List Char) : List Char :=
  match text.dropWhile (· != '.') with
  | '.' :: fraction => if fraction.all (· == '0') then text.takeWhile (· != '.') else text
  | _ => text

def naturalOf? (digits : List Char) : Option Nat :=
  match digits with
  | [] => none
  | ['0'] => some 0
  | '0' :: _ => none
  | digits => if digits.all Json.isDigit then some (Json.numeral digits) else none

def signedOf? : List Char → Option Int
  | '-' :: digits => (naturalOf? digits).map fun n => -(n : Int)
  | digits => (naturalOf? digits).map Int.ofNat

def intOfText (text : String) : Except Issue Int :=
  let trimmed := Character.trim Character.isSpace text.toList
  let unsigned? := match trimmed with
    | '+' :: '-' :: _ => none
    | '+' :: digits => some digits
    | digits => some digits
  let cleaned? := unsigned?.bind fun digits =>
    Character.withoutUnderscores? (withoutZeroFraction (withoutLeadingZeros digits))
  match cleaned?.bind signedOf? with
  | some n => .ok n
  | none => .error .intParsing

def intOf : Json.Value → Except Issue Int
  | .bool value => .ok (if value then 1 else 0)
  | .integer n => .ok n
  | .decimal digits exponent => wholeOf digits exponent
  | .notFinite => .error .finiteNumber
  | .string text => intOfText text
  | _ => .error .intType

def literalCaseOf : Json.Value → Except Issue LiteralCase
  | .string "lower" => .ok .lower
  | .string "upper" => .ok .upper
  | _ => .error .literalError

def sizeLimitOf (n : Int) : Except Issue { n : Nat // 1 ≤ n } :=
  if h : 1 ≤ n then .ok ⟨n.toNat, one_le_toNat h⟩ else .error .greaterThanEqual

def recursionLimitOf (n : Int) : Except Issue { n : Nat // 1 ≤ n ∧ n ≤ 1024 } :=
  if h : n < 1 then .error .greaterThanEqual
  else if h' : 1024 < n then .error .lessThanEqual
  else .ok ⟨n.toNat, by omega⟩

def details {α : Type} (field : String) : Except Issue α → List Detail
  | .ok _ => []
  | .error issue => [⟨field, issue⟩]

def fieldOf {α : Type} (document : Json.Value) (field : String)
    (read : Json.Value → Except Issue α) (default : α) : Except Issue α :=
  match document.get? field with
  | none => .ok default
  | some value => read value

/-- The configuration that an object spells; unknown keys are passed over. -/
def ofObject (document : Json.Value) : Except (List Detail) Config :=
  let omitParameterList := fieldOf document "omit_parameter_list" boolOf standard.omitParameterList
  let omitReturnType := fieldOf document "omit_return_type" boolOf standard.omitReturnType
  let literalCase := fieldOf document "literal_case" literalCaseOf standard.literalCase
  let closingAngleSpace := fieldOf document "closing_angle_space" boolOf standard.closingAngleSpace
  let recursionLimit := fieldOf document "recursion_limit"
    (fun value => intOf value >>= recursionLimitOf)
    ⟨standard.recursionLimit, standard.recursionLimit_pos, standard.recursionLimit_le⟩
  let outputSizeLimit := fieldOf document "output_size_limit"
    (fun value => intOf value >>= sizeLimitOf)
    ⟨standard.outputSizeLimit, standard.outputSizeLimit_pos⟩
  let inputSizeLimit := fieldOf document "input_size_limit"
    (fun value => intOf value >>= sizeLimitOf)
    ⟨standard.inputSizeLimit, standard.inputSizeLimit_pos⟩
  match omitParameterList, omitReturnType, literalCase, closingAngleSpace, recursionLimit,
    outputSizeLimit, inputSizeLimit with
  | .ok omitParameterList, .ok omitReturnType, .ok literalCase, .ok closingAngleSpace,
    .ok ⟨recursionLimit, recursionBounds⟩, .ok ⟨outputSizeLimit, output_pos⟩,
    .ok ⟨inputSizeLimit, input_pos⟩ =>
    .ok {
      omitParameterList := omitParameterList
      omitReturnType := omitReturnType
      literalCase := literalCase
      closingAngleSpace := closingAngleSpace
      recursionLimit := recursionLimit
      outputSizeLimit := outputSizeLimit
      inputSizeLimit := inputSizeLimit
      recursionLimit_pos := recursionBounds.1
      recursionLimit_le := recursionBounds.2
      outputSizeLimit_pos := output_pos
      inputSizeLimit_pos := input_pos }
  | _, _, _, _, _, _, _ =>
    .error (details "omit_parameter_list" omitParameterList
      ++ details "omit_return_type" omitReturnType
      ++ details "literal_case" literalCase
      ++ details "closing_angle_space" closingAngleSpace
      ++ details "recursion_limit" recursionLimit
      ++ details "output_size_limit" outputSizeLimit
      ++ details "input_size_limit" inputSizeLimit)

def ofDocument : Json.Value → Except (List Detail) Config
  | .object members => ofObject (.object members)
  | _ => .error [⟨"", .modelType⟩]

def ofText (text : String) : Except (List Detail) Config :=
  match Json.read? text with
  | some document => ofDocument document
  | none => .error [⟨"", .jsonInvalid⟩]

/-- Options that take precedence over those of a configuration. -/
structure Overrides where
  omitParameterList : Bool := false
  omitReturnType : Bool := false
  upperLiterals : Bool := false
  recursionLimit : Option Int := none
  outputSizeLimit : Option Int := none
  deriving DecidableEq, Repr

def override (config : Config) (overrides : Overrides) : Except (List Detail) Config :=
  let recursionLimit : Except Issue { n : Nat // 1 ≤ n ∧ n ≤ 1024 } :=
    match overrides.recursionLimit with
    | none => .ok ⟨config.recursionLimit, config.recursionLimit_pos, config.recursionLimit_le⟩
    | some n => recursionLimitOf n
  let outputSizeLimit : Except Issue { n : Nat // 1 ≤ n } :=
    match overrides.outputSizeLimit with
    | none => .ok ⟨config.outputSizeLimit, config.outputSizeLimit_pos⟩
    | some n => sizeLimitOf n
  match recursionLimit, outputSizeLimit with
  | .ok ⟨recursionLimit, recursionBounds⟩, .ok ⟨outputSizeLimit, output_pos⟩ =>
    .ok { config with
      omitParameterList := config.omitParameterList || overrides.omitParameterList
      omitReturnType := config.omitReturnType || overrides.omitReturnType
      literalCase := if overrides.upperLiterals then .upper else config.literalCase
      recursionLimit := recursionLimit
      outputSizeLimit := outputSizeLimit
      recursionLimit_pos := recursionBounds.1
      recursionLimit_le := recursionBounds.2
      outputSizeLimit_pos := output_pos }
  | recursionLimit, outputSizeLimit =>
    .error (details "recursion_limit" recursionLimit
      ++ details "output_size_limit" outputSizeLimit)

end Config

end MangledNames
