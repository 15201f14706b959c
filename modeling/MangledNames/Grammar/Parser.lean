import MangledNames.Cursor
import MangledNames.Substitutions
set_option autoImplicit false

/-!
Parsing with a table of substitutions: the context that productions share, and the few ways in
which they are put together.
-/

namespace MangledNames.Grammar

structure Context where
  cursor : Cursor
  substitutions : Substitutions := {}
  recursionLimit : Nat
  depth : Nat := 0
  /-- Off inside the type of a conversion operator: arguments that follow belong to the operator. -/
  templateArgsAllowed : Bool := true
  /-- On during a trial. Trials never nest. -/
  speculative : Bool := false

abbrev Parser := EStateM Fault Context

def scanning {α : Type} (scan : Scan α) : Parser α := fun context =>
  match scan context.cursor with
  | .ok a cursor => .ok a { context with cursor := cursor }
  | .error fault cursor => .error fault { context with cursor := cursor }

instance : MonadLift Scan Parser := ⟨scanning⟩

def here : Parser Cursor := return (← get).cursor

def fail {α : Type} (error : DemangleError) : Parser α := throw (.error error)

def unexpected {α : Type} (production : String) : Parser α := do
  fail ((← here).unexpectedAt production)

def build (node : Node) : Parser Node :=
  if node.wellFormed then pure node else throw (.broken .nodeWellFormed)

def remember (node : Node) : Parser Unit :=
  modify fun context => { context with substitutions := context.substitutions.append node }

def remembered (component : Parser Node) : Parser Node := do
  let node ← component
  remember node
  return node

def nested {α : Type} (body : Parser α) : Parser α := fun context =>
  match body { context with depth := context.depth + 1 } with
  | .ok a after => .ok a { after with depth := context.depth }
  | .error fault after => .error fault { after with depth := context.depth }

def allowingTemplateArgs {α : Type} (allowed : Bool) (body : Parser α) : Parser α := fun context =>
  match body { context with templateArgsAllowed := allowed } with
  | .ok a after => .ok a { after with templateArgsAllowed := context.templateArgsAllowed }
  | .error fault after =>
    .error fault { after with templateArgsAllowed := context.templateArgsAllowed }

/-- Reads a production on trial: that the text does not fit it is an answer, not a failure. -/
def trial {α : Type} (body : Parser α) : Parser (Option α) := fun context =>
  match body { context with speculative := true } with
  | .ok a after => .ok (some a) { after with speculative := false }
  | .error (.error error) after =>
    if error.category = .malformed then .ok none { after with speculative := false }
    else .error (.error error) { after with speculative := false }
  | .error fault after => .error fault { after with speculative := false }

def abandon (cursorCheckpoint substitutionsCheckpoint : Nat) : Parser Unit := do
  Cursor.restore cursorCheckpoint
  let context ← get
  match context.substitutions.restore substitutionsCheckpoint with
  | .ok substitutions => set { context with substitutions := substitutions }
  | .error fault => throw fault

inductive Round (α β : Type) where
  | again (a : α)
  | done (b : β)

/-- Repeats a round until it is done. Every round but the last reads at least one character, so
there are no more of them than characters in `bound`. -/
def repeatWithin {α β : Type} (round : α → Parser (Round α β)) : List Char → α → Parser β
  | bound, a => do
    match ← round a with
    | .done b => return b
    | .again a =>
      match bound with
      | [] => throw (.broken .itemConsumes)
      | _ :: bound => repeatWithin round bound a

def repeatRound {α β : Type} (round : α → Parser (Round α β)) (a : α) : Parser β := do
  repeatWithin round (← here).rest a

def itemsUntil {α : Type} (listEnd : Parser Bool) (item : Parser α) : Parser (List α) :=
  repeatRound (fun items => do
    if ← listEnd then return .done items.reverse
    return .again ((← item) :: items)) []

def itemsToE {α : Type} (item : Parser α) : Parser (List α) := itemsUntil (Cursor.consume "E") item

end MangledNames.Grammar
