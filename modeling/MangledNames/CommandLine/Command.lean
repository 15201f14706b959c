import MangledNames.CommandLine.Arguments
import MangledNames.Config.Document
set_option autoImplicit false

/-!
The commands and the command lines that spell them.
-/

namespace MangledNames.CommandLine

inductive Command where
  | demangle (symbols : List String) (config : Option String) (overrides : Config.Overrides)
  | tree (symbol : String) (config : Option String) (nodesMax : Int)
  | lookup (file : String) (names : List String) (config : Option String)

namespace Command

def configForm : OptionForm := { name := "--config", takesValue := true }

def demangleForms : List OptionForm :=
  [configForm,
   { name := "--no-params", letter := some 'p' },
   { name := "--no-return-type" },
   { name := "--upper-literals" },
   { name := "--recursion-limit", takesValue := true },
   { name := "--output-size-limit", takesValue := true }]

def ofDemangle? (words : List String) : Option Command := do
  let arguments ← Arguments.ofList? demangleForms words
  return demangle arguments.operands (arguments.value? "--config") {
    omitParameterList := arguments.has "--no-params"
    omitReturnType := arguments.has "--no-return-type"
    upperLiterals := arguments.has "--upper-literals"
    recursionLimit := ← arguments.integer? "--recursion-limit"
    outputSizeLimit := ← arguments.integer? "--output-size-limit" }

def nodesMaxDefault : Int := 256

def treeForms : List OptionForm := [configForm, { name := "--nodes-max", takesValue := true }]

def ofTree? (words : List String) : Option Command := do
  let arguments ← Arguments.ofList? treeForms words
  let nodesMax ← arguments.integer? "--nodes-max"
  match arguments.operands with
  | [symbol] => some (tree symbol (arguments.value? "--config") (nodesMax.getD nodesMaxDefault))
  | _ => none

def ofLookup? (words : List String) : Option Command := do
  let arguments ← Arguments.ofList? [configForm] words
  match arguments.operands with
  | file :: name :: names => some (lookup file (name :: names) (arguments.value? "--config"))
  | _ => none

/-- The name of a command, which `--` may precede, and the words after it. -/
def split : List String → Option (String × List String)
  | "--" :: name :: words => some (name, words)
  | name :: words => some (name, words)
  | [] => none

def ofWords? (words : List String) : Option Command := do
  match ← split words with
  | ("demangle", words) => ofDemangle? words
  | ("tree", words) => ofTree? words
  | ("elf", words) =>
    match ← split words with
    | ("lookup", words) => ofLookup? words
    | _ => none
  | _ => none

def paths : Command → List String
  | demangle _ config _ => config.toList
  | tree _ config _ => config.toList
  | lookup file _ config => file :: config.toList

def readsInput : Command → Bool
  | demangle [] _ _ => true
  | _ => false

end Command

end MangledNames.CommandLine
