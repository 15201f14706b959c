import MangledNames.Utf8
set_option autoImplicit false

/-!
ELF files: the header, the headers of the sections, and the names of the sections. Numbers have
the width of the file's class and the order of its bytes.
-/

namespace MangledNames.Elf

inductive ElfError where
  | notElf
  | cutShort
  | headersOverlap
  | entriesUneven
  deriving DecidableEq, Repr

inductive WordSize where
  | bits32
  | bits64
  deriving DecidableEq, Repr

inductive ByteOrder where
  | littleEndian
  | bigEndian
  deriving DecidableEq, Repr

def ByteOrder.number (order : ByteOrder) (bytes : List UInt8) : Nat :=
  let bigEndian := match order with
    | .littleEndian => bytes.reverse
    | .bigEndian => bytes
  bigEndian.foldl (fun value byte => value * 256 + byte.toNat) 0

structure SectionHeader where
  nameOffset : Nat
  type : Nat
  offset : Nat
  size : Nat
  /-- The section that belongs to this one; of a symbol table, the table of its names. -/
  link : Nat
  entrySize : Nat
  deriving DecidableEq, Repr

def SectionHeader.isSymbolTable (header : SectionHeader) : Bool :=
  header.type ∈ [2, 11, 0x6FFFFFF3]

structure ElfFile where
  bytes : ByteArray
  wordSize : WordSize
  byteOrder : ByteOrder
  headersOffset : Nat
  headerDistance : Nat
  headerCount : Nat
  nameTable : Option SectionHeader := none

namespace ElfFile

def slice (bytes : ByteArray) (offset length : Nat) : Except ElfError (List UInt8) :=
  if offset + length ≤ bytes.size then .ok (bytes.extract offset (offset + length)).toList
  else .error .cutShort

def numberIn (file : ElfFile) (record : List UInt8) (distance length : Nat) : Nat :=
  file.byteOrder.number ((record.drop distance).take length)

def sectionHeaderAt (file : ElfFile) (offset : Nat) : Except ElfError SectionHeader := do
  match file.wordSize with
  | .bits32 =>
    let number := file.numberIn (← slice file.bytes offset 40)
    return {
      nameOffset := number 0 4
      type := number 4 4
      offset := number 16 4
      size := number 20 4
      link := number 24 4
      entrySize := number 36 4 }
  | .bits64 =>
    let number := file.numberIn (← slice file.bytes offset 64)
    return {
      nameOffset := number 0 4
      type := number 4 4
      offset := number 24 8
      size := number 32 8
      link := number 40 4
      entrySize := number 56 8 }

def headerLength (file : ElfFile) : Nat :=
  match file.wordSize with
  | .bits32 => 40
  | .bits64 => 64

def headerOffset (file : ElfFile) (index : Nat) : Except ElfError Nat :=
  if 0 < file.headersOffset ∧ file.headerDistance < file.headerLength then .error .headersOverlap
  else .ok (file.headersOffset + index * file.headerDistance)

def sectionHeader (file : ElfFile) (index : Nat) : Except ElfError SectionHeader := do
  file.sectionHeaderAt (← file.headerOffset index)

/-- The file with the section of section names, unless it ends before that section's header. -/
def withNameTable (file : ElfFile) (index : Nat) : Except ElfError ElfFile := do
  -- the greatest index says that the index is in the first header
  let index ← if index = 0xFFFF then SectionHeader.link <$> file.sectionHeader 0 else pure index
  let offset ← file.headerOffset index
  if file.bytes.size < offset then return file
  return { file with nameTable := some (← file.sectionHeaderAt offset) }

def ofBytes (bytes : ByteArray) : Except ElfError ElfFile := do
  match (bytes.extract 0 6).toList with
  | [0x7F, 0x45, 0x4C, 0x46, wordSize, byteOrder] =>
    let wordSize ← match wordSize with
      | 1 => pure WordSize.bits32
      | 2 => pure WordSize.bits64
      | _ => throw .notElf
    let byteOrder ← match byteOrder with
      | 1 => pure ByteOrder.littleEndian
      | 2 => pure ByteOrder.bigEndian
      | _ => throw .notElf
    match wordSize with
    | .bits32 =>
      let header ← slice bytes 0 52
      let number (distance length : Nat) := byteOrder.number ((header.drop distance).take length)
      withNameTable ⟨bytes, wordSize, byteOrder, number 32 4, number 46 2, number 48 2, none⟩
        (number 50 2)
    | .bits64 =>
      let header ← slice bytes 0 64
      let number (distance length : Nat) := byteOrder.number ((header.drop distance).take length)
      withNameTable ⟨bytes, wordSize, byteOrder, number 40 8, number 58 2, number 60 2, none⟩
        (number 62 2)
  | _ => throw .notElf

def bytesToZero (bytes : ByteArray) (found : List UInt8) (offset : Nat) : Option (List UInt8) :=
  if h : offset < bytes.size then
    if bytes[offset] = 0 then some found.reverse
    else bytesToZero bytes (bytes[offset] :: found) (offset + 1)
  else none
  termination_by bytes.size - offset

def text (file : ElfFile) (table : SectionHeader) (offset : Nat) : String :=
  Utf8.decode ((bytesToZero file.bytes [] (table.offset + offset)).getD [])

def sectionCount (file : ElfFile) : Except ElfError Nat :=
  if file.headersOffset = 0 then .ok 0
  else if file.headerCount = 0 then SectionHeader.size <$> file.sectionHeader 0
  else .ok file.headerCount

/-- A section with its name. Symbol tables have to consist of whole entries, and the table of
their names has to be there. -/
def sectionAt (file : ElfFile) (index : Nat) : Except ElfError (String × SectionHeader) := do
  let header ← file.sectionHeader index
  match file.nameTable with
  | none => throw .cutShort
  | some names =>
    if header.isSymbolTable then
      let _ ← file.sectionHeader header.link
      if header.entrySize = 0 then throw .entriesUneven
      if header.size % header.entrySize ≠ 0 then throw .entriesUneven
    return (file.text names header.nameOffset, header)

def sectionsFrom (file : ElfFile) (index : Nat) :
    Nat → Except ElfError (List (String × SectionHeader))
  | 0 => .ok []
  | count + 1 => do
    let first ← file.sectionAt index
    return first :: (← file.sectionsFrom (index + 1) count)

def sections (file : ElfFile) : Except ElfError (List (String × SectionHeader)) := do
  file.sectionsFrom 0 (← file.sectionCount)

end ElfFile

end MangledNames.Elf
