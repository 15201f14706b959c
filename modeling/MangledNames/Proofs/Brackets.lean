import MangledNames.Proofs.Grammar.CollectingEncodings
import MangledNames.Proofs.Printing.BracketHalves
import MangledNames.Symbol
set_option autoImplicit false

/-!
The brackets of a demangled text match, as long as the names in the symbol have none and no complex
type leaves the right half of a declarator to be printed.
-/

namespace MangledNames

open Printing Grammar

theorem Node.render_balanced {node : Node} (h : node.Throughout Tidy) (config : Config)
    {text : String} (htext : node.render config = .ok text) : Balanced text.toList := by
  have hscopes : TidyScopes ({} : Place).scopes := nofun
  have hadds : Adds ((Halves.levels config (levelsOf config)).print {} node) [] [] :=
    print_adds (Halves.levels_matched config _) hscopes h
  exact Says.render hadds htext

namespace Symbol

theorem plain_of_parse {raw : String} {config : Config} {symbol : Symbol}
    (h : parse raw config = .ok symbol) : symbol.tree.Plain := by
  unfold parse at h
  cases hcontext : contextOf raw config with
  | error fault =>
    rw [hcontext] at h
    cases h
  | ok context =>
    rw [hcontext] at h
    have hplain : context.Plain := by
      unfold contextOf at hcontext
      split at hcontext
      · cases hcontext
      · split at hcontext
        · cases hcontext
        · cases hcontext
          exact nofun
    have hread :=
      (wholeSymbol_collects (Rules.levels_collect context.levelsLeft)).ends context hplain
    dsimp only [bind,Except.bind,reading] at h
    cases hresult : wholeSymbol (Rules.levels context.levelsLeft) context with
    | ok tree after =>
      rw [hresult] at h hread
      dsimp only at h
      unfold ofTree at h
      split at h
      · cases h
        exact hread.2
      · cases h
    | error fault after =>
      rw [hresult] at h
      cases h

end Symbol

/-- Whatever brackets the left half of a declarator opens, the right half closes: a demangled text
has all its brackets matched, if the names in the symbol have none. -/
theorem demangled_brackets_match (raw : String) (config : Config) (symbol : Symbol)
    (hparse : Symbol.parse raw config = .ok symbol) (hnames : symbol.tree.Throughout PlainNames)
    (hcomplex : symbol.tree.Throughout FlatComplex) (text : String)
    (htext : demangle raw config = .ok text) :
    Balanced text.toList := by
  have hread := Symbol.plain_of_parse hparse
  have htidy : symbol.tree.Throughout Tidy := fun part hpart =>
    ⟨hnames part hpart,hread part hpart,hcomplex part hpart⟩
  unfold demangle at htext
  rw [hparse] at htext
  exact symbol.tree.render_balanced htidy config htext

def callback (result : BuiltinType) (cv : CvQualifiers) (ref : Option ReferenceKind)
    (externC transactionSafe : Bool) : Node :=
  .pointerType (.functionType ⟨.builtinType result,[],cv,ref,none,externC,transactionSafe⟩)

def functionOf (name : String) (type : Node) (cv : CvQualifiers)
    (ref : Option ReferenceKind) : Node :=
  .mangledName (.encoding ⟨.sourceName name,some ⟨none,[type],cv,ref⟩⟩) none

def callbackResult? : Node → Option BuiltinType
  | .pointerType (.functionType ⟨.builtinType result,[],_,_,none,_,_⟩) => some result
  | _ => none

theorem callbackResult?_eq {type : Node} {result : BuiltinType}
    (h : callbackResult? type = some result) :
    ∃ cv ref externC transactionSafe, type = callback result cv ref externC transactionSafe := by
  unfold callbackResult? at h
  split at h
  · cases h
    exact ⟨_,_,_,_,rfl⟩
  · cases h

def complexPart? : Node → Option Node
  | .complexType part => some part
  | _ => none

theorem complexPart?_eq {type part : Node} (h : complexPart? type = some part) :
    type = .complexType part := by
  unfold complexPart? at h
  split at h
  · cases h
    rfl
  · cases h

def onlyParameter? : Node → Option Node
  | .mangledName (.encoding ⟨.sourceName "f",some ⟨none,[type],_,_⟩⟩) none => some type
  | _ => none

theorem onlyParameter?_eq {tree type : Node} (h : onlyParameter? tree = some type) :
    ∃ cv ref, tree = functionOf "f" type cv ref := by
  unfold onlyParameter? at h
  split at h
  · cases h
    exact ⟨_,_,rfl⟩
  · cases h

section
variable {p : Node → Prop} {cv : CvQualifiers} {ref : Option ReferenceKind}

theorem callback_throughout {result : BuiltinType} {externC transactionSafe : Bool}
    (hresult : p (.builtinType result)) (hfunction : ∀ f, p (.functionType f))
    (hpointer : ∀ target, p (.pointerType target)) :
    (callback result cv ref externC transactionSafe).Throughout p := by
  refine .of_children (hpointer _) (List.forall_mem_singleton.mpr (.of_children (hfunction _) ?_))
  exact List.forall_mem_singleton.mpr (.of_children hresult nofun)

theorem functionOf_throughout {name : String} {type : Node} (hname : p (.sourceName name))
    (hsignature : ∀ s, p (.signature s)) (hencoding : ∀ e, p (.encoding e))
    (hwhole : ∀ e, p (.mangledName e none)) (htype : type.Throughout p) :
    (functionOf name type cv ref).Throughout p := by
  refine .of_children (hwhole _) (List.forall_mem_singleton.mpr (.of_children (hencoding _) ?_))
  refine List.forall_mem_cons.mpr ⟨.of_children hname nofun,List.forall_mem_singleton.mpr ?_⟩
  exact .of_children (hsignature _) (List.forall_mem_singleton.mpr htype)

theorem plainNames_functionOf {type : Node} (h : type.Throughout PlainNames) :
    (functionOf "f" type cv ref).Throughout PlainNames :=
  functionOf_throughout (.inl (by decide)) (fun _ => trivial) (fun _ => trivial)
    (fun _ => trivial) h

theorem plainNames_callback {result : BuiltinType} {externC transactionSafe : Bool} :
    (callback result cv ref externC transactionSafe).Throughout PlainNames :=
  callback_throughout trivial (fun _ => trivial) fun _ => trivial

end

theorem demangled_brackets_match_pointer :
    ∃ symbol, Symbol.parse "_Z1fPFivE" .standard = .ok symbol ∧ symbol.tree.Throughout PlainNames ∧
      symbol.tree.Throughout FlatComplex ∧ ∃ text, demangle "_Z1fPFivE" .standard = .ok text ∧
        Balanced text.toList := by
  have hshape : (((Symbol.parse "_Z1fPFivE" .standard).toOption.bind fun symbol =>
      onlyParameter? symbol.tree).bind callbackResult?) = some .int := by decide +kernel
  have hprints : (demangle "_Z1fPFivE" .standard).toBool = true := by decide +kernel
  cases hparse : Symbol.parse "_Z1fPFivE" .standard with
  | error fault =>
    rw [hparse] at hshape
    cases hshape
  | ok symbol =>
    rw [hparse] at hshape
    obtain ⟨type,htype,hresult⟩ := Option.bind_eq_some_iff.mp hshape
    obtain ⟨cv',ref',htree⟩ := onlyParameter?_eq htype
    obtain ⟨cv,ref,externC,transactionSafe,rfl⟩ := callbackResult?_eq hresult
    have hnames : symbol.tree.Throughout PlainNames := by
      rw [htree]
      exact plainNames_functionOf plainNames_callback
    have hcomplex : symbol.tree.Throughout FlatComplex := by
      rw [htree]
      exact functionOf_throughout trivial (fun _ => trivial) (fun _ => trivial) (fun _ => trivial)
        (callback_throughout trivial (fun _ => trivial) fun _ => trivial)
    cases htext : demangle "_Z1fPFivE" .standard with
    | ok text =>
      exact ⟨_,rfl,hnames,hcomplex,text,rfl,
        demangled_brackets_match _ _ _ hparse hnames hcomplex text htext⟩
    | error fault =>
      rw [htext] at hprints
      cases hprints

/-- `_Z1fCPFvvE`: nothing closes what the pointer opens, because complex types have no right
half. -/
theorem complex_declarators_stay_open :
    (demangle "_Z1fCPFvvE").toOption = some "f(void (* _Complex)" ∧
      ¬∀ (raw : String) (config : Config) (symbol : Symbol), Symbol.parse raw config = .ok symbol →
        symbol.tree.Throughout PlainNames →
        ∀ text, demangle raw config = .ok text → Balanced text.toList := by
  have hprinted : (demangle "_Z1fCPFvvE").toOption = some "f(void (* _Complex)" := by decide +kernel
  have hshape : ((((Symbol.parse "_Z1fCPFvvE" .standard).toOption.bind fun symbol =>
      onlyParameter? symbol.tree).bind complexPart?).bind callbackResult?) = some .void := by
    decide +kernel
  refine ⟨hprinted,fun h => ?_⟩
  cases hparse : Symbol.parse "_Z1fCPFvvE" .standard with
  | error fault =>
    rw [hparse] at hshape
    cases hshape
  | ok symbol =>
    rw [hparse] at hshape
    obtain ⟨part,hpart,hresult⟩ := Option.bind_eq_some_iff.mp hshape
    obtain ⟨type,htype,hcomplex⟩ := Option.bind_eq_some_iff.mp hpart
    obtain ⟨cv',ref',htree⟩ := onlyParameter?_eq htype
    obtain ⟨cv,ref,externC,transactionSafe,rfl⟩ := callbackResult?_eq hresult
    obtain rfl := complexPart?_eq hcomplex
    have hnames : symbol.tree.Throughout PlainNames := by
      rw [htree]
      exact plainNames_functionOf
        (.of_children trivial (List.forall_mem_singleton.mpr plainNames_callback))
    cases htext : demangle "_Z1fCPFvvE" .standard with
    | ok text =>
      have hbalanced := h _ _ _ hparse hnames text htext
      rw [htext] at hprinted
      cases hprinted
      exact absurd hbalanced (by decide)
    | error fault =>
      rw [htext] at hprinted
      cases hprinted

end MangledNames
