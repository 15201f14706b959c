import MangledNames.Symbol
set_option autoImplicit false

/-!
The symbols of an object file with what their names say: listed by address, then by name, and
found by their raw name.
-/

namespace MangledNames

structure SymbolEntry where
  table : String
  name : String
  address : Nat
  size : Nat
  kind : String
  name_ne : name ≠ ""
  deriving DecidableEq, Repr

namespace SymbolEntry

def precedes (a b : SymbolEntry) : Bool :=
  a.address < b.address || (a.address == b.address && a.name ≤ b.name)

/-- What the name of a symbol comes to. -/
inductive NameReading where
  | demangled (text : String)
  | notMangled
  | failed
  deriving DecidableEq, Repr

def NameReading.text? : NameReading → Option String
  | demangled text => some text
  | _ => none

def nameReading (entry : SymbolEntry) (config : Config) : Except Fault NameReading :=
  match demangle entry.name config with
  | .ok text => .ok (.demangled text)
  | .error (.error error) => .ok (if error.category = .notMangled then .notMangled else .failed)
  | .error fault => .error fault

end SymbolEntry

structure ListedSymbol where
  entry : SymbolEntry
  demangled : Option String
  deriving DecidableEq, Repr

namespace ListedSymbol

def shown (symbol : ListedSymbol) : String := symbol.demangled.getD symbol.entry.name

def precedes (a b : ListedSymbol) : Bool := a.entry.precedes b.entry

/-- Puts symbols in order. Those with the same address and name stay as they come. -/
def inOrder (symbols : List ListedSymbol) : List ListedSymbol := symbols.mergeSort precedes

end ListedSymbol

structure SymbolList where
  symbols : List ListedSymbol
  sorted : symbols.Pairwise fun a b => a.precedes b

namespace SymbolList

def ofSorted (symbols : List ListedSymbol) : Except Fault SymbolList :=
  if h : symbols.Pairwise fun a b => a.precedes b then .ok ⟨symbols, h⟩
  else .error (.broken .symbolsSorted)

/-- The first symbol with a raw name; a symbol may be in both tables. -/
def find? (list : SymbolList) (name : String) : Option ListedSymbol :=
  list.symbols.find? fun symbol => symbol.entry.name == name

def indexOf? (list : SymbolList) (name : String) : Option Nat :=
  list.symbols.findIdx? fun symbol => symbol.entry.name == name

def rawNames (list : SymbolList) : List String :=
  (list.symbols.map fun symbol => symbol.entry.name).eraseDups

def demangledCount (list : SymbolList) : Nat :=
  list.symbols.countP fun symbol => symbol.demangled.isSome

end SymbolList

inductive ListWarning where
  | noSymbols
  | failures (count : Nat)
  deriving DecidableEq, Repr

def symbolTableNames : List String := [".symtab", ".dynsym"]

def ListWarning.message : ListWarning → String
  | noSymbols => "No symbols found. Most likely the elf was stripped, both `"
      ++ "` and `".intercalate symbolTableNames ++ "` sections are missing or empty."
  | failures count => s!"{count} symbols look mangled, but could not be demangled."

structure Listing where
  list : SymbolList
  warnings : List ListWarning := []

namespace Listing

def ofEntries (entries : List SymbolEntry) (config : Config) : Except Fault Listing := do
  let readings ← entries.mapM (·.nameReading config)
  let failures := readings.count .failed
  let symbols := List.zipWith (fun entry reading => ⟨entry, reading.text?⟩) entries readings
  return {
    list := ← SymbolList.ofSorted (ListedSymbol.inOrder symbols)
    warnings := if failures = 0 then [] else [.failures failures] }

end Listing

structure RawSymbol where
  name : String
  address : Int
  size : Int
  kind : String
  deriving DecidableEq, Repr

def SymbolEntry.ofRaw (table : String) (raw : RawSymbol) : Except Fault SymbolEntry :=
  if h : raw.name ≠ "" ∧ 0 ≤ raw.address ∧ 0 ≤ raw.size then
    .ok {
      table := table
      name := raw.name
      address := raw.address.toNat
      size := raw.size.toNat
      kind := raw.kind
      name_ne := h.1 }
  else .error (.broken .entryComplete)

namespace Listing

/-- The entries of a table. Symbols of sections, and the first of each table, have no name. -/
def tableEntries (table : String) (symbols : List RawSymbol) : Except Fault (List SymbolEntry) :=
  (symbols.filter fun raw => raw.name ≠ "").mapM (SymbolEntry.ofRaw table)

def ofTables (tables : String → List RawSymbol) (config : Config) : Except Fault Listing := do
  let entries ← symbolTableNames.mapM fun table => tableEntries table (tables table)
  let listing ← ofEntries entries.flatten config
  return { listing with
    warnings := (if entries.flatten.isEmpty then [.noSymbols] else []) ++ listing.warnings }

end Listing

def addressText (address : Int) : String :=
  let sign := if address < 0 then ['-'] else []
  let digits := (Nat.toDigits 16 address.natAbs).map Char.toUpper
  String.ofList (sign ++ List.replicate (8 - sign.length - digits.length) '0' ++ digits)

def symbolLine (address : Int) (name : String) : String :=
  "0x" ++ addressText address ++ " (`" ++ name ++ "`)"

end MangledNames
