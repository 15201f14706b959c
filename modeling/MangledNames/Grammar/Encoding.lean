import MangledNames.Grammar.Expression
set_option autoImplicit false

/-!
Encodings of functions and data, special names, and the complete symbol.
-/

namespace MangledNames.Grammar

open Cursor

def isTypeStart (c : Char) : Bool :=
  "rVKUPROCGFAMTDuSNZ".toList.contains c || isDigit c || (BuiltinType.ofLetter? c).isSome

def atEncodingEnd : Scan Bool := return !(← peekIs isTypeStart)

def encodingParameters (r : Rules) : Parser (List Node) := do
  if ← consume "v" then return []
  let first ← r.type
  return first :: (← itemsUntil atEncodingEnd r.type)

def functionEncoding (r : Rules) : Parser Node := do
  let named ← r.name
  if ← atEncodingEnd then return .encoding ⟨named.node, none⟩
  if ← lookingAt "Ua9enable_ifI" then
    fail (.unsupportedExtension "enable_if attribute" (← here).position)
  let returnType ← if named.traits.spellsReturnType then some <$> r.type else pure none
  let parameters ← encodingParameters r
  return .encoding ⟨named.node, some {
    returnType := returnType
    parameters := parameters
    cv := named.traits.cv
    ref := named.traits.ref }⟩

/-- `<name> <bare-function-type>`, `<name>` or `<special-name>` -/
def encoding (r : Rules) : Parser Node := do
  if ← peekIs (fun c => c == 'T' || c == 'G') then r.specialName
  else functionEncoding r

/-- `h <number> _`, `v <number> _ <number> _`; the letter was read already. -/
def callOffset (letter : Char) (before : Cursor) : Scan CallOffset := do
  match letter with
  | 'h' =>
    let offset ← number "call offset"
    expect "_" "call offset"
    return { offset := offset }
  | 'v' =>
    let offset ← number "call offset"
    expect "_" "call offset"
    let virtualOffset ← number "virtual call offset"
    expect "_" "virtual call offset"
    return { offset := offset, virtualOffset := some virtualOffset }
  | _ =>
    Cursor.fail (.unexpectedToken "call offset" before.position (String.singleton letter))

def announcedCallOffset : Scan CallOffset := do
  let before ← get
  callOffset (← next "call offset") before

def callOffsets : SpecialNameKind → Scan (List CallOffset)
  | .nonVirtualThunk => do return [← callOffset 'h' (← get)]
  | .virtualThunk => do return [← callOffset 'v' (← get)]
  | .covariantThunk => do
    let this ← announcedCallOffset
    return [this, ← announcedCallOffset]
  | _ => return []

def specialTarget (r : Rules) : SpecialNameKind → Parser Node
  | .vtable | .vtt | .typeinfo | .typeinfoName => r.type
  | .tlsInit | .tlsWrapper | .guardVariable => Named.node <$> r.name
  | .templateParamObject => r.templateArg
  | _ => r.encoding

/-- `GR <name> [<seq-id>] _` after its code -/
def referenceTemporary (r : Rules) : Parser Node := do
  let named ← r.name
  if ← consume "_" then return .referenceTemporary named.node 0
  let number ← seqId "reference temporary number"
  expect "_" "reference temporary number"
  return .referenceTemporary named.node (number + 1)

/-- `TC <type> <number> _ <type>` after its code -/
def constructionVtable (r : Rules) : Parser Node := do
  let complete ← r.type
  let _ ← number "construction vtable offset"
  expect "_" "construction vtable offset"
  return .constructionVtable complete (← r.type)

def specialName (r : Rules) : Parser Node := do
  if ← consume "GR" then referenceTemporary r
  else if ← consume "TC" then constructionVtable r
  else
    let start ← here
    match SpecialNameKind.ofText? start.rest with
    | some kind =>
      let _ ← takeChars kind.code.length "special name"
      let offsets ← callOffsets kind
      build (.specialName kind (← specialTarget r kind) offsets)
    | none =>
      match start.rest with
      | a :: b :: _ =>
        fail (.unexpectedToken "special name" start.position (String.ofList [a, b]))
      | _ => fail (.unexpectedEnd "special name" start.length)

def cloneMark : List Char → List Char
  | '.' :: c :: rest =>
    if c.isAlpha || c == '_' then
      '.' :: c :: rest.takeWhile fun c => c.isAlphanum || c == '_'
    else if isDigit c then '.' :: c :: rest.takeWhile isDigit
    else []
  | _ => []

def cloneSuffix : Parser (Option String) := do
  let marks ← itemsUntil (return (cloneMark (← here).rest).isEmpty) do
    takeChars (cloneMark (← here).rest).length "clone suffix"
  return if marks.isEmpty then none else some (String.ofList marks.flatten)

/-- A symbol after its `_Z`; what follows it is left alone. -/
def mangledName (r : Rules) : Parser Node := do
  let encoding ← r.encoding
  build (.mangledName encoding (← cloneSuffix))

def wholeSymbol (r : Rules) : Parser Node := do
  let name ← mangledName r
  unless ← atEnd do unexpected "end of symbol"
  return name

end MangledNames.Grammar
