import MangledNames.LoadError
import MangledNames.SymbolList
set_option autoImplicit false

/-!
The symbol tables of ELF files.
-/

namespace MangledNames.Elf

def symbolKind : Nat → String
  | 0 => "STT_NOTYPE"
  | 1 => "STT_OBJECT"
  | 2 => "STT_FUNC"
  | 3 => "STT_SECTION"
  | 4 => "STT_FILE"
  | 5 => "STT_COMMON"
  | 6 => "STT_TLS"
  | 7 => "STT_NUM"
  | 8 => "STT_RELC"
  | 9 => "STT_SRELC"
  | 10 => "STT_LOOS"
  | 12 => "STT_HIOS"
  | 13 => "STT_LOPROC"
  | 15 => "STT_HIPROC"
  | number => toString number

namespace ElfFile

def symbolAt (file : ElfFile) (names : SectionHeader) (offset : Nat) :
    Except ElfError RawSymbol := do
  match file.wordSize with
  | .bits32 =>
    let number := file.numberIn (← slice file.bytes offset 16)
    return {
      name := file.text names (number 0 4)
      address := number 4 4
      size := number 8 4
      kind := symbolKind (number 12 1 % 16) }
  | .bits64 =>
    let number := file.numberIn (← slice file.bytes offset 24)
    return {
      name := file.text names (number 0 4)
      address := number 8 8
      size := number 16 8
      kind := symbolKind (number 4 1 % 16) }

def symbolsFrom (file : ElfFile) (names : SectionHeader) (distance offset : Nat) :
    Nat → Except ElfError (List RawSymbol)
  | 0 => .ok []
  | count + 1 => do
    let first ← file.symbolAt names offset
    return first :: (← file.symbolsFrom names distance (offset + distance) count)

/-- The symbols of a table, none if it is missing. Of sections with one name the last one counts. -/
def symbols (file : ElfFile) (sections : List (String × SectionHeader)) (table : String) :
    Except ElfError (List RawSymbol) := do
  match sections.reverse.find? (·.1 == table) with
  | none => return []
  | some (_, header) =>
    let names ← file.sectionHeader header.link
    file.symbolsFrom names header.entrySize header.offset (header.size / header.entrySize)

end ElfFile

/-- Lists the symbols of a file. The header of the file is read before the configuration, and the
configuration before the sections. -/
def listing (bytes : ByteArray) (config : Except LoadError Config) : Except LoadError Listing := do
  let file ← (ElfFile.ofBytes bytes).mapError .elf
  let config ← config
  let sections ← file.sections.mapError .elf
  let tables ← (symbolTableNames.mapM fun table => do
    return (table, ← file.symbols sections table)).mapError .elf
  (Listing.ofTables (fun table => (tables.lookup table).getD []) config).mapError .fault

end MangledNames.Elf
