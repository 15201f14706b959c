import MangledNames.Config
import MangledNames.Grammar.Production
import MangledNames.Printing.Render
set_option autoImplicit false

/-!
Mangled symbols: reading a whole text or the beginning of one, and printing what it names.
-/

namespace MangledNames

open Grammar

structure Symbol where
  raw : String
  tree : Node
  substitutions : Substitutions

namespace Symbol

/-- What mangled names start with; some platforms put another underscore in front of all names. -/
def mark? (text : List Char) : Option (List Char) :=
  if "__Z".toList.isPrefixOf text then some "__Z".toList
  else if "_Z".toList.isPrefixOf text then some "_Z".toList
  else none

def ofTree (raw : List Char) (tree : Node) (substitutions : Substitutions) : Except Fault Symbol :=
  if (mark? raw).isSome then .ok ⟨String.ofList raw, tree, substitutions⟩
  else .error (.broken .symbolMarked)

def contextOf (raw : String) (config : Config) : Except Fault Context :=
  if raw.length > config.inputSizeLimit then
    .error (.error (.inputTooLarge raw.length config.inputSizeLimit))
  else match mark? raw.toList with
    | none => .error (.error (.notMangledName raw))
    | some mark => .ok {
        cursor := Cursor.advance mark.length (Cursor.start raw.toList)
        recursionLimit := config.recursionLimit }

def parse (raw : String) (config : Config := .standard) : Except Fault Symbol := do
  match reading wholeSymbol (← contextOf raw config) with
  | .ok tree after => ofTree raw.toList tree after.substitutions
  | .error fault _ => .error fault

/-- Reads the symbol that a text starts with, and gives what follows it. -/
def parseWithTail (raw : String) (config : Config := .standard) :
    Except Fault (Symbol × String) := do
  match reading mangledName (← contextOf raw config) with
  | .ok tree after =>
    return (← ofTree after.cursor.passed.reverse tree after.substitutions,
      String.ofList after.cursor.rest)
  | .error fault _ => .error fault

def ofBytes (bytes : List UInt8) : String := String.ofList (bytes.map fun b => Char.ofNat b.toNat)

end Symbol

def demangle (raw : String) (config : Config := .standard) : Except Fault String := do
  let symbol ← Symbol.parse raw config
  symbol.tree.render config

end MangledNames
