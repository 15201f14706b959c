import MangledNames.Proofs.Grammar.SingleLevels
import MangledNames.Proofs.WholeSymbol
import MangledNames.Symbol
set_option autoImplicit false

/-!
Names that old compilers qualify with a single level, in the type of a first parameter: which
further parameters leave them alone.
-/

namespace MangledNames

open Cursor Grammar

/-- A function template `f<int>` whose first parameter is `decltype(a::x)`, spelled with a single
level, and whose further parameters are spelled in full. -/
def singleLevelText (a x : String) (types : List Node) : List Char :=
  '1' :: 'f' :: 'I' :: 'i' :: 'E' :: 'v' :: (singleLevelCode a x ++ Node.typesCode types)

def singleLevelTree (a x : String) (types : List Node) : Node :=
  .mangledName (.encoding ⟨.templateName (.sourceName "f") [.builtinType .int],
    some {
      returnType := some (.builtinType .void), parameters := singleLevelType a x :: types }⟩) none

namespace Grammar

def instanceTable : Substitutions := ({} : Substitutions).append (.sourceName "f")

section
variable {k : Nat} {rest : List Char} {a x : String} {types : List Node}

theorem identifierCode_letter {name : String} {c : Char} (h : name.toList = [c]) :
    identifierCode name = ['1',c] := by
  rw [identifierCode,h]
  simp [spelled,digitChar]

theorem instanceName_reads :
    Reads true (Rules.levels (k + 4)).name ('1' :: 'f' :: 'I' :: 'i' :: 'E' :: rest) {}
      ⟨.templateName (.sourceName "f") [.builtinType .int],{ endsWithTemplateArgs := true }⟩ rest
      instanceTable := by
  have hf : Identifier "f" := ⟨by decide,rfl,rfl,by decide⟩
  have hunqualified : Reads true (Rules.levels (k + 3)).unqualifiedName
      (identifierCode "f" ++ 'I' :: 'i' :: 'E' :: rest) {} ⟨.sourceName "f",{}⟩
      ('I' :: 'i' :: 'E' :: rest) {} := unqualified_reads hf rfl
  have hint : Spells (k + 1) instanceTable (.types [.builtinType .int]) ['i'] instanceTable :=
    .moreTypes (.builtin (.letter (c := 'i') rfl)) .noTypes
  have harguments : Reads true (Rules.levels (k + 3)).templateArgs ('I' :: 'i' :: 'E' :: rest)
      instanceTable [.builtinType .int] rest instanceTable := arguments_reads hint.reads rest
  rw [identifierCode_letter (c := 'f') rfl] at hunqualified
  exact nested_reads (templateName_reads (c := '1') rfl hunqualified harguments)

theorem returnType_reads :
    Reads true (Rules.levels (k + 4)).type ('v' :: rest) instanceTable (.builtinType .void) rest
      instanceTable := nested_reads (builtin_reads (.letter (c := 'v') rfl))

/-- Types that read like no name are the further parameters. -/
theorem singleLevelText_reads (ha : Nameable a) (hx : Nameable x)
    (htypes : Spellable (.types types)) (hvoid : ∀ type ∈ types, type ≠ .builtinType .void)
    (hname : ¬NameBegins (Node.typesCode types)) (hk : Node.typesLevels types ≤ k + 4) :
    ∃ table, Gives (wholeSymbol (Rules.levels (k + 5)))
      (OffTrial true (singleLevelText a x types) {})
      (singleLevelTree a x types) (At true [] table) := by
  obtain ⟨table,hreading⟩ :=
    htypes.reads_inFull true hk (instanceTable.append (singleLevelType a x))
  have hitems : Items true (Rules.levels (k + 4)).type Opens (Node.typesCode types)
      (instanceTable.append (singleLevelType a x)) types [] table := by
    have hall := hreading [] ⟨rfl,rfl⟩
    rwa [List.append_nil] at hall
  have hfunction : Gives (Rules.levels (k + 4)).name (OffTrial true (singleLevelText a x types) {})
      ⟨.templateName (.sourceName "f") [.builtinType .int],{ endsWithTemplateArgs := true }⟩
      (OffTrial true ('v' :: (singleLevelCode a x ++ Node.typesCode types)) instanceTable) :=
    instanceName_reads.offTrial (Rules.levels_advance (k + 4)).name
  have hreturn : Gives (Rules.levels (k + 4)).type
      (OffTrial true ('v' :: (singleLevelCode a x ++ Node.typesCode types)) instanceTable)
      (.builtinType .void)
        (OffTrial true (singleLevelCode a x ++ Node.typesCode types) instanceTable) :=
    returnType_reads.offTrial (Rules.levels_advance (k + 4)).type
  have hfirst : Gives (Rules.levels (k + 4)).type
      (OffTrial true (singleLevelCode a x ++ Node.typesCode types) instanceTable)
      (singleLevelType a x)
      (At true (Node.typesCode types) (instanceTable.append (singleLevelType a x))) :=
    singleLevelType_offTrial ha hx fun _ => baseUnresolvedName_fails ⟨types,htypes,hvoid,rfl⟩ hname
  have hparameters : Gives (encodingParameters (Rules.levels (k + 4)))
      (OffTrial true (singleLevelCode a x ++ Node.typesCode types) instanceTable)
      (singleLevelType a x :: types) (At true [] table) := by
    unfold encodingParameters
    refine (scanned_offTrial (consume_refuses rfl)).bind (hfirst.bind ?_)
    exact (furtherParameters_reads hitems).bind .pure
  have hencoding : Gives (functionEncoding (Rules.levels (k + 4)))
      (OffTrial true (singleLevelText a x types) {})
      (.encoding ⟨.templateName (.sourceName "f") [.builtinType .int],
        some {
          returnType := some (.builtinType .void), parameters := singleLevelType a x :: types }⟩)
      (At true [] table) := by
    unfold functionEncoding
    refine hfunction.bind ((scanned_offTrial (atEncodingEnd_refuses rfl)).bind ?_)
    refine (scanned_offTrial (lookingAt_gives rfl)).bind (.ifNeg Bool.false_ne_true ?_)
    exact .ifPos rfl ((hreturn.map some).bind (hparameters.bind .pure))
  refine ⟨table,wholeSymbol_of_encoding (nested_offTrial ?_)⟩
  unfold encoding
  exact (scanned_offTrial (peekIs_gives rfl)).bind hencoding

/-- Types that read like a name are none of the parameters. -/
theorem singleLevelText_yields (ha : Nameable a) (hx : Nameable x)
    (htypes : Spellable (.types types)) (hvoid : ∀ type ∈ types, type ≠ .builtinType .void)
    (hname : NameBegins (Node.typesCode types)) :
    ∃ n, ∀ k, n ≤ k → Yields (wholeSymbol (Rules.levels (k + 5)))
      (OffTrial true (singleLevelText a x types) {}) (· ≠ singleLevelTree a x types) := by
  obtain ⟨n,hreads⟩ := hname.reads ⟨types,htypes,hvoid,rfl⟩ instanceTable
  refine ⟨n,fun k hk => ?_⟩
  obtain ⟨node,rest,table',hread⟩ := hreads (k + 1) (by omega)
  have hfirst := singleLevelType_yields ha hx hread
  have hparameters : Yields (encodingParameters (Rules.levels (k + 4)))
      (At true (singleLevelCode a x ++ Node.typesCode types) instanceTable)
      (·.head? ≠ some (singleLevelType a x)) := by
    unfold encodingParameters
    refine (scanned (consume_refuses rfl)).yields (hfirst.bind fun type htype => ?_)
    exact .bind .any fun others _ => .pure (by simpa using htype)
  have hencoding :
    Yields (functionEncoding (Rules.levels (k + 4))) (At true (singleLevelText a x types) {})
      fun node => ∀ marks, Node.mangledName node marks ≠ singleLevelTree a x types := by
    unfold functionEncoding
    refine instanceName_reads.yields ((scanned (atEncodingEnd_refuses rfl)).yields ?_)
    refine (scanned (lookingAt_gives rfl)).yields ((returnType_reads.map some).yields ?_)
    refine hparameters.bind fun parameters hhead => .pure fun marks hsame => hhead ?_
    cases hsame
    rfl
  have hdispatch : Yields (encoding (Rules.levels (k + 4))) (At true (singleLevelText a x types) {})
      fun node => ∀ marks, Node.mangledName node marks ≠ singleLevelTree a x types := by
    unfold encoding
    exact (scanned (peekIs_gives rfl)).yields hencoding
  exact wholeSymbol_yields (nested_yields hdispatch fun _ hc => hc.toAt.deeper) fun _ marks hnode =>
    hnode marks

end

end Grammar

/-- Whatever the further parameters are, a single level is read in front of them unless their
spelling reads like a name: the trial of terminated levels then takes them for one. Smaller limits
only cut the reading off. -/
theorem single_levels_are_read_before_types (a x : String) (types : List Node) (ha : Nameable a)
    (hx : Nameable x) (htypes : Spellable (.types types))
    (hvoid : ∀ type ∈ types, type ≠ .builtinType .void) (config : Config) :
    (¬NameBegins (Node.typesCode types) →
      ((marked (singleLevelText a x types)).length ≤ config.inputSizeLimit →
        max 4 (Node.typesLevels types) < config.recursionLimit →
        ∃ table, Symbol.parse (marked (singleLevelText a x types)) config =
          .ok ⟨marked (singleLevelText a x types),singleLevelTree a x types,table⟩) ∧
      ((∃ e, Symbol.parse (marked (singleLevelText a x types)) config = .error (.error e) ∧
          e.category = .limit) ∨
        ∃ table, Symbol.parse (marked (singleLevelText a x types)) config =
          .ok ⟨marked (singleLevelText a x types),singleLevelTree a x types,table⟩)) ∧
    (NameBegins (Node.typesCode types) → ∀ symbol,
      Symbol.parse (marked (singleLevelText a x types)) config = .ok symbol →
        symbol.tree ≠ singleLevelTree a x types) := by
  refine ⟨fun hname => ⟨fun hsize hlevels => ?_,?_⟩,fun hname symbol hparse => ?_⟩
  · obtain ⟨k,hk⟩ := Nat.exists_eq_add_of_le' (show 5 ≤ config.recursionLimit by omega)
    obtain ⟨table,hread⟩ := singleLevelText_reads ha hx htypes hvoid hname (k := k) (by omega)
    rw [← hk] at hread
    exact ⟨table,parse_offTrial hsize hread⟩
  · have hlevels :
      config.recursionLimit ≤ config.recursionLimit + Node.typesLevels types + 5 := by omega
    obtain ⟨table,hread⟩ := singleLevelText_reads ha hx htypes hvoid hname
      (k := config.recursionLimit + Node.typesLevels types) (by omega)
    rcases parse_offTrial_upToLimits hlevels hread with ⟨_,hcut,e,rfl,he⟩ | hsame
    · exact .inl ⟨e,hcut,he⟩
    · exact .inr ⟨table,hsame⟩
  · obtain ⟨n,hyields⟩ := singleLevelText_yields ha hx htypes hvoid hname
    exact parse_marked_yields (Nat.le_add_right config.recursionLimit (n + 5))
      (hyields (config.recursionLimit + n) (Nat.le_add_left _ _)) hparse

theorem marked_singleLevelText (types : List Node) : marked (singleLevelText "a" "x" types) =
    String.ofList ("_Z1fIiEvDTsr1a1xE".toList ++ Node.typesCode types) := by
  have ha : identifierCode "a" = ['1','a'] := identifierCode_letter rfl
  have hx : identifierCode "x" = ['1','x'] := identifierCode_letter rfl
  rw [marked,singleLevelText,singleLevelCode_append,ha,hx]
  rfl

theorem typesCode_b : Node.typesCode [.sourceName "b"] = ['1','b'] := by
  have hb : identifierCode "b" = ['1','b'] := identifierCode_letter rfl
  change identifierCode "b" ++ [] = _
  rw [hb]
  rfl

/-- `_Z1fIiEvDTsr1a1xEi` is read with a single level, and `_Z1fIiEvDTsr1a1xE1b` is not. -/
theorem single_levels_are_read_before_types_int :
    (∃ table, Symbol.parse "_Z1fIiEvDTsr1a1xEi" .standard =
      .ok ⟨"_Z1fIiEvDTsr1a1xEi",singleLevelTree "a" "x" [.builtinType .int],table⟩) ∧
    ∀ symbol, Symbol.parse "_Z1fIiEvDTsr1a1xE1b" .standard = .ok symbol →
      symbol.tree ≠ singleLevelTree "a" "x" [.sourceName "b"] := by
  have ha : Nameable "a" := ⟨by decide,rfl,by decide⟩
  have hx : Nameable "x" := ⟨by decide,rfl,by decide⟩
  have hb : Identifier "b" := ⟨by decide,rfl,rfl,by decide⟩
  have hint : ¬NameBegins (Node.typesCode [.builtinType .int]) := by
    rintro ⟨hdigit⟩
    cases hdigit
  have hclass : NameBegins (Node.typesCode [.sourceName "b"]) := by
    rw [typesCode_b]
    exact .identifier rfl
  have hread := (single_levels_are_read_before_types "a" "x" [.builtinType .int] ha hx
    (.moreTypes (.builtin (.letter (c := 'i') rfl)) .noTypes) (by simp) .standard).1 hint
  have hother := (single_levels_are_read_before_types "a" "x" [.sourceName "b"] ha hx
    (.moreTypes (.className hb) .noTypes) (by simp) .standard).2 hclass
  rw [marked_singleLevelText] at hread hother
  rw [typesCode_b] at hother
  exact ⟨hread.1 (by decide) (by decide),hother⟩

/-- The class `b` behind the type is taken for the name behind the levels `a` and `x`, and
then the type has no end. -/
theorem classes_may_be_taken_for_names :
    ¬∀ a x types, Nameable a → Nameable x → Spellable (.types types) →
      (∀ type ∈ types, type ≠ .builtinType .void) → ∀ config,
      (∃ e, Symbol.parse (marked (singleLevelText a x types)) config = .error (.error e) ∧
        e.category = .limit) ∨
      ∃ table, Symbol.parse (marked (singleLevelText a x types)) config =
        .ok ⟨marked (singleLevelText a x types),singleLevelTree a x types,table⟩ := by
  intro h
  have hb : Identifier "b" := ⟨by decide,rfl,rfl,by decide⟩
  have hsymbol : marked (singleLevelText "a" "x" [.sourceName "b"]) = "_Z1fIiEvDTsr1a1xE1b" := by
    rw [marked_singleLevelText,typesCode_b]
    rfl
  have hfails : (Symbol.parse "_Z1fIiEvDTsr1a1xE1b" .standard).map (fun _ => ()) =
      .error (.error (.unexpectedEnd "decltype" 19)) := by decide +kernel
  have hparse := h "a" "x" [.sourceName "b"] ⟨by decide,rfl,by decide⟩ ⟨by decide,rfl,by decide⟩
    (.moreTypes (.className hb) .noTypes) (by simp) .standard
  rw [hsymbol] at hparse
  rcases hparse with ⟨e,hparse,he⟩ | ⟨table,hparse⟩
  · rw [hparse] at hfails
    cases hfails
    cases he
  · rw [hparse] at hfails
    cases hfails

end MangledNames
