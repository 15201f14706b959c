import MangledNames.CommandLine.Session
set_option autoImplicit false

/-!
The program: it reads the files that a command line names, runs the command, and prints what comes
of it. Messages go to standard error.
-/

open MangledNames CommandLine

def contents? (path : String) : IO (Option ByteArray) := do
  try
    return some (← IO.FS.readBinFile path)
  catch _ => return none

/-- The lines of a stream up to its end. -/
partial def readAll (stream : IO.FS.Stream) (found : String) : IO String := do
  let line ← stream.getLine
  if line.isEmpty then return found else readAll stream (found ++ line)

def errorText : LoadError → String
  | .fileMissing => "a file cannot be read"
  | .elf .notElf => "not an ELF file"
  | .elf .cutShort => "the ELF file is cut short"
  | .elf .headersOverlap => "the section headers of the ELF file overlap"
  | .elf .entriesUneven => "a symbol table of the ELF file has an incomplete entry"
  | .config details =>
    "invalid configuration: "
      ++ ", ".intercalate (details.map fun detail => detail.field ++ " " ++ detail.issue.name)
  | .fault (.error error) => error.message
  | .fault (.broken _) => "a promise was broken"

def main (words : List String) : IO UInt32 := do
  let paths := ((Command.ofWords? words).map Command.paths).getD []
  let files ← paths.mapM fun path => do return (path, ← contents? path)
  let input ← if ((Command.ofWords? words).map Command.readsInput).getD false then
    readAll (← IO.getStdin) ""
  else pure ""
  let outcome := outcome { file := fun path => (files.lookup path).join, input := input } words
  outcome.lines.forM fun line => IO.println line
  outcome.messages.forM fun message => IO.eprintln message
  if let some error := outcome.error then IO.eprintln (errorText error)
  return outcome.exitCode.toUInt32
