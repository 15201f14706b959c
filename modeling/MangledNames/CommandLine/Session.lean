import MangledNames.CommandLine.Command
import MangledNames.Elf.SymbolTable
import MangledNames.Outline
set_option autoImplicit false

/-!
What the commands do: the lines they print, the messages they leave, and how they end.
-/

namespace MangledNames.CommandLine

structure Surroundings where
  file : String → Option ByteArray
  input : String

structure Transcript where
  lines : Array String := #[]
  messages : Array String := #[]

/-- A running command; an error of files ends it. -/
abbrev Session := EStateM LoadError Transcript

def say (line : String) : Session Unit :=
  modify fun transcript => { transcript with lines := transcript.lines.push line }

def report (message : String) : Session Unit :=
  modify fun transcript => { transcript with messages := transcript.messages.push message }

def lift {α : Type} : Except LoadError α → Session α
  | .ok a => pure a
  | .error error => throw error

def Surroundings.config (surroundings : Surroundings) : Option String → Except LoadError Config
  | none => .ok .standard
  | some path =>
    match surroundings.file path with
    | none => .error .fileMissing
    | some bytes => (Config.ofText (Utf8.decode bytes.toList)).mapError .config

def linesFrom (found : List Char) : List Char → List (List Char)
  | [] => if found.isEmpty then [] else [found.reverse]
  | '\r' :: '\n' :: rest => found.reverse :: linesFrom [] rest
  | '\r' :: rest => found.reverse :: linesFrom [] rest
  | '\n' :: rest => found.reverse :: linesFrom [] rest
  | c :: rest => linesFrom (c :: found) rest

def linesOf (text : String) : List String := (linesFrom [] text.toList).map String.ofList

def tabStop (column : Nat) : Nat := (column / 8 + 1) * 8

/-- Text from a column on as a terminal shows it, after what was shown already, the latest first:
tabs become spaces, and of the other controls those that ring or move the cursor are left out. -/
def shownFrom (found : List Char) (column : Nat) : List Char → List Char
  | [] => found.reverse
  | '\n' :: rest => shownFrom ('\n' :: found) 0 rest
  | '\t' :: rest =>
    let stop := tabStop column
    shownFrom (List.replicate (stop - column) ' ' ++ found) stop rest
  | c :: rest =>
    if c ∈ ['\x07', '\x08', '\x0B', '\x0C', '\x0D'] then shownFrom found column rest
    else shownFrom (c :: found) (column + 1) rest

def shown (text : String) : String := String.ofList (shownFrom [] 0 text.toList)

def sayDemangled (config : Config) (symbol : String) : Session Unit := do
  match MangledNames.demangle symbol config with
  | .ok text => say text
  | .error (.error error) =>
    unless error.category = .notMangled do
      report ("Unable to demangle `" ++ symbol ++ "`: " ++ error.message)
    say symbol
  | .error fault => throw (.fault fault)

def sayTree (config : Config) (symbol : String) (nodesMax : Int) : Session Nat := do
  match Symbol.parse symbol config with
  | .error (.error error) =>
    report ("Unable to parse `" ++ symbol ++ "`: " ++ error.message)
    return 1
  | .error fault => throw (.fault fault)
  | .ok parsed =>
    say (shown parsed.raw)
    (parsed.tree.outline nodesMax).forM say
    match MangledNames.demangle symbol config with
    | .ok text =>
      say (shown text)
      return 0
    | .error (.error error) =>
      report ("Unable to print `" ++ symbol ++ "`: " ++ error.message)
      return 1
    | .error fault => throw (.fault fault)

def sayFound (list : SymbolList) (name : String) : Session Bool := do
  match list.find? name with
  | some symbol =>
    say (shown (symbolLine symbol.entry.address symbol.shown))
    return true
  | none =>
    report ("Symbol `" ++ name ++ "` not found.")
    return false

def Command.run (surroundings : Surroundings) : Command → Session Nat
  | demangle symbols configPath overrides => do
    let config ← lift (surroundings.config configPath)
    let config ← lift ((config.override overrides).mapError .config)
    let symbols := if symbols.isEmpty then linesOf surroundings.input else symbols
    symbols.forM fun symbol =>
      sayDemangled config (String.ofList (Character.trim Character.isBlank symbol.toList))
    return 0
  | tree symbol configPath nodesMax => do
    sayTree (← lift (surroundings.config configPath)) symbol nodesMax
  | lookup path names configPath => do
    match surroundings.file path with
    | none => throw .fileMissing
    | some bytes =>
      let listing ← lift (Elf.listing bytes (surroundings.config configPath))
      listing.warnings.forM fun warning => report warning.message
      let found ← names.mapM (sayFound listing.list)
      return if found.all id then 0 else 1

structure Outcome where
  exitCode : Nat
  lines : List String := []
  messages : List String := []
  error : Option LoadError := none

/-- The outcome of a command line. One that spells no command has exit code 2. -/
def outcome (surroundings : Surroundings) (words : List String) : Outcome :=
  match Command.ofWords? words with
  | none => { exitCode := 2 }
  | some command =>
    match command.run surroundings {} with
    | .ok exitCode transcript =>
      { exitCode := exitCode
        lines := transcript.lines.toList
        messages := transcript.messages.toList }
    | .error error transcript =>
      { exitCode := 1
        lines := transcript.lines.toList
        messages := transcript.messages.toList
        error := some error }

end MangledNames.CommandLine
