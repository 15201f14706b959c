import MangledNames.Proofs.Grammar.Spellable
import MangledNames.Proofs.WholeSymbol
set_option autoImplicit false

/-!
Parameter types that were spelled, with whatever choice of back references, are read back from the
symbol of a function.
-/

namespace MangledNames

open Cursor Grammar

def functionSymbol (name : String) (text : List Char) : String :=
  String.ofList ('_' :: 'Z' :: (identifierCode name ++ text))

def functionTree (name : String) (parameters : List Node) : Node :=
  .mangledName
    (.encoding ⟨.sourceName name,some { returnType := none, parameters := parameters }⟩) none

namespace Grammar

theorem functionSymbol_reads {n : Nat} {name : String} {type : Node} {types : List Node}
    {text : List Char} {table : Substitutions} (hname : Identifier name)
    (hvoid : type ≠ .builtinType .void)
    (hitems : Items true (Rules.levels (n + 2)).type Opens text {} (type :: types) [] table) :
    Reads true (wholeSymbol (Rules.levels (n + 3))) (identifierCode name ++ text) {}
      (functionTree name (type :: types)) [] table := by
  have hopens : Opens type text := by
    cases hitems with
    | cons hopens => exact hopens
  have hname : Reads true (Rules.levels (n + 1)).unqualifiedName (identifierCode name ++ text) {}
      ⟨.sourceName name,{}⟩ text {} := unqualified_reads hname hopens.closed.tags
  obtain ⟨c,rest,rfl⟩ := List.exists_cons_of_ne_nil hopens.ne_nil
  obtain ⟨d,code,hd,hcode⟩ := identifierCode_head name
  have hspecial : (identifierCode name ++ c :: rest)[0]?.any (fun c => c == 'T' || c == 'G') =
      false := by
    rw [hcode]
    exact not_special (isWordStart_digit hd)
  have hread : Reads true (Rules.levels (n + 2)).name (identifierCode name ++ c :: rest) {}
      ⟨.sourceName name,{}⟩ (c :: rest) {} := by
    rw [hcode] at hname ⊢
    exact nested_reads (name_reads (isWordStart_digit hd) hopens.closed.arguments hname)
  refine wholeSymbol_reads hspecial ?_
  exact functionEncoding_reads ⟨hopens.1,hopens.2.1⟩ hread .pure
    (encodingParameters_reads hvoid hitems)

theorem spelledSymbol_reads {n : Nat} {name : String} {type : Node} {types : List Node}
    {text : List Char} {table : Substitutions} (hname : Identifier name)
    (hvoid : type ≠ .builtinType .void)
    (h : Spells (n + 2) {} (.types (type :: types)) text table) :
    Reads true (wholeSymbol (Rules.levels (n + 3))) (identifierCode name ++ text) {}
      (functionTree name (type :: types)) [] table := by
  have hitems := h.reads [] ⟨rfl,rfl⟩
  rw [List.append_nil] at hitems
  exact functionSymbol_reads hname hvoid hitems

end Grammar

/-- With levels enough for the spelling, what is read is what was spelled. -/
theorem parse_functionSymbol {n : Nat} {name : String} {type : Node} {types : List Node}
    {text : List Char} {table : Substitutions} (hname : Identifier name)
    (hvoid : type ≠ .builtinType .void) (h : Spells (n + 2) {} (.types (type :: types)) text table)
    (config : Config) (hsize : ¬(functionSymbol name text).length > config.inputSizeLimit) :
    (n + 3 ≤ config.recursionLimit → Symbol.parse (functionSymbol name text) config =
      .ok ⟨functionSymbol name text,functionTree name (type :: types),table⟩) ∧
    UpToLimits (Symbol.parse (functionSymbol name text) config)
      (.ok ⟨functionSymbol name text,functionTree name (type :: types),table⟩) := by
  have hread : ∀ levels, n + 3 ≤ levels → Reads true (wholeSymbol (Rules.levels levels))
      (identifierCode name ++ text) {} (functionTree name (type :: types)) [] table := by
    intro levels hlevels
    obtain ⟨k,rfl⟩ := Nat.exists_eq_add_of_le hlevels
    have hmono : Spells (n + k + 2) {} (.types (type :: types)) text table := h.mono (by omega)
    rw [Nat.add_right_comm]
    exact spelledSymbol_reads hname hvoid hmono
  constructor
  · exact fun hlevels => parse_marked (Nat.not_lt.mp hsize) (hread _ hlevels)
  · exact parse_marked_upToLimits (Nat.le_max_left config.recursionLimit (n + 3))
      (hread _ (Nat.le_max_right _ _))

/-- Types that can be spelled have a spelling, and whatever way they are spelled as the parameters
of a function, within its limits the symbol is read as that function with those parameters, and with
the table that the spelling left. -/
theorem spelled_parameters_are_read_back (name : String) (parameters : List Node)
    (hname : Identifier name) (hne : parameters ≠ []) (hspellable : Spellable (.types parameters))
    (hvoid : ∀ type ∈ parameters, type ≠ .builtinType .void) :
    (∃ n text table, Spells n {} (.types parameters) text table) ∧
    ∀ n text table, Spells n {} (.types parameters) text table → ∀ config : Config,
      ((functionSymbol name text).length ≤ config.inputSizeLimit → max n 2 < config.recursionLimit →
        Symbol.parse (functionSymbol name text) config =
          .ok ⟨functionSymbol name text,functionTree name parameters,table⟩) ∧
      ((∃ e, Symbol.parse (functionSymbol name text) config = .error (.error e) ∧
          e.category = .limit) ∨
        Symbol.parse (functionSymbol name text) config =
          .ok ⟨functionSymbol name text,functionTree name parameters,table⟩) := by
  refine ⟨hspellable.exists_spelling {},fun n text table h config => ?_⟩
  cases parameters with
  | nil => exact absurd rfl hne
  | cons type types =>
    have htype := hvoid type List.mem_cons_self
    have hlevels : Spells (max n 2 - 2 + 2) {} (.types (type :: types)) text table :=
      h.mono (by omega)
    by_cases hsize : (functionSymbol name text).length > config.inputSizeLimit
    · refine ⟨fun hle => absurd hle (by omega),.inl ⟨_,Symbol.parse_tooLarge hsize,rfl⟩⟩
    · obtain ⟨henough,hany⟩ := parse_functionSymbol hname htype hlevels config hsize
      refine ⟨fun _ hlimit => henough (by omega),?_⟩
      rcases hany with ⟨_,hcut,e,rfl,he⟩ | hsame
      · exact .inl ⟨e,hcut,he⟩
      · exact .inr hsame

/-- `_Z1fP1AS_` -/
theorem spelled_parameters_are_read_back_pointer :
    Symbol.parse "_Z1fP1AS_" .standard =
      .ok ⟨"_Z1fP1AS_",functionTree "f" [.pointerType (.sourceName "A"),.sourceName "A"],
        ⟨#[.sourceName "A",.pointerType (.sourceName "A")]⟩⟩ := by
  have hf : Identifier "f" := ⟨by decide,rfl,rfl,by decide⟩
  have hA : Identifier "A" := ⟨by decide,rfl,rfl,by decide⟩
  have hspelled : Spells 4 {} (.types [.pointerType (.sourceName "A"),.sourceName "A"])
      ['P','1','A','S','_'] ⟨#[.sourceName "A",.pointerType (.sourceName "A")]⟩ :=
    .moreTypes (.wrapped .pointer (.className hA))
      (.moreTypes (.reference (n := 3) (i := 0) rfl) .noTypes)
  exact ((spelled_parameters_are_read_back "f" [.pointerType (.sourceName "A"),.sourceName "A"] hf
    (by simp) (.moreTypes (.wrapped .pointer (.className hA)) (.moreTypes (.className hA) .noTypes))
    (by simp)).2 4 _ _ hspelled .standard).1 (by decide) (by decide)

/-- A length runs on into an identifier that starts with a digit: `21a` is no class `1a`. -/
theorem digits_run_on_from_lengths :
    ¬∀ name : String, name.toList ≠ [] → isAnonymousNamespace name.toList = false →
      name.toList.length < 10 ^ numberDigitsMax →
      Symbol.parse (functionSymbol "f" (identifierCode name)) .standard =
        .ok ⟨functionSymbol "f" (identifierCode name),functionTree "f" [.sourceName name],
          ⟨#[.sourceName name]⟩⟩ := by
  intro h
  have hparse := h "1a" (by decide) rfl (by decide)
  have hsymbol : functionSymbol "f" (identifierCode "1a") = "_Z1f21a" := by
    have hone : spelled 10 1 = ['1'] := by simp [spelled,digitChar]
    have htwo : spelled 10 2 = ['2'] := by simp [spelled,digitChar]
    change String.ofList ('_' :: 'Z' :: (spelled 10 1 ++ _ ++ (spelled 10 2 ++ _))) = _
    rw [hone,htwo]
    rfl
  have hfails : (Symbol.parse "_Z1f21a" .standard).toOption.isSome = false := by decide +kernel
  rw [hsymbol] at hparse
  rw [hparse] at hfails
  cases hfails

end MangledNames
