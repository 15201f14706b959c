import MangledNames.Character.Digit
import MangledNames.Character.Space
set_option autoImplicit false

/-!
Arguments of a command: options, which may stand anywhere before `--`, and operands.
-/

namespace MangledNames.CommandLine

structure OptionForm where
  name : String
  takesValue : Bool := false
  letter : Option Char := none

structure Arguments where
  operands : List String := []
  options : List (String × Option String) := []

namespace Arguments

def addOperand (found : Arguments) (operand : String) : Arguments :=
  { found with operands := found.operands ++ [operand] }

def addOption (found : Arguments) (name : String) (value : Option String) : Arguments :=
  { found with options := (name, value) :: found.options }

def has (arguments : Arguments) (name : String) : Bool := (arguments.options.lookup name).isSome

/-- The value of an option; of several the last one counts. -/
def value? (arguments : Arguments) (name : String) : Option String :=
  (arguments.options.lookup name).join

def splitOption (argument : String) : String × Option String :=
  let characters := argument.toList
  match characters.dropWhile (· != '=') with
  | [] => (argument, none)
  | _ :: value => (String.ofList (characters.takeWhile (· != '=')), some (String.ofList value))

def flagsOf? (forms : List OptionForm) (letters : List Char) : Option (List String) :=
  letters.mapM fun letter =>
    (forms.find? fun form => form.letter == some letter && !form.takesValue).map (·.name)

def sortFrom (forms : List OptionForm) (found : Arguments) : List String → Option Arguments
  | [] => some found
  | argument :: rest =>
    match argument.toList with
    | ['-', '-'] => some (rest.foldl addOperand found)
    | '-' :: '-' :: _ =>
      let (name, value) := splitOption argument
      match forms.find? (·.name == name), value with
      | none, _ => none
      | some form, some value =>
        if form.takesValue then sortFrom forms (found.addOption name (some value)) rest else none
      | some form, none =>
        if form.takesValue then
          match rest with
          | [] => none
          | value :: rest => sortFrom forms (found.addOption name (some value)) rest
        else sortFrom forms (found.addOption name none) rest
    | '-' :: letter :: letters =>
      match flagsOf? forms (letter :: letters) with
      | none => none
      | some names => sortFrom forms (names.foldl (addOption · · none) found) rest
    | _ => sortFrom forms (found.addOperand argument) rest

def ofList? (forms : List OptionForm) (arguments : List String) : Option Arguments :=
  sortFrom forms {} arguments

/-- The number that decimal digits of any script spell, with `_` between some of them. -/
def naturalOf? (digits : List Char) : Option Nat := do
  let values ← (← Character.withoutUnderscores? digits).mapM Character.decimalValue?
  if values.isEmpty then none
  else return values.foldl (fun number value => number * 10 + value) 0

def integerOf? (text : String) : Option Int :=
  match Character.trim Character.isSpace text.toList with
  | '-' :: digits => (naturalOf? digits).map fun n => -(n : Int)
  | '+' :: digits => (naturalOf? digits).map Int.ofNat
  | digits => (naturalOf? digits).map Int.ofNat

def integer? (arguments : Arguments) (name : String) : Option (Option Int) :=
  match arguments.value? name with
  | none => some none
  | some text => (integerOf? text).map some

end Arguments

end MangledNames.CommandLine
