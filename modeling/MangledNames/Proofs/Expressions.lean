import MangledNames.Proofs.Grammar.DecodingClauses
import MangledNames.Proofs.Progress
import MangledNames.Proofs.WholeSymbol
set_option autoImplicit false

/-!
Expressions that were spelled are read back, wherever they stand and from the arguments of a
template function.
-/

namespace MangledNames

open Cursor Grammar

/-- A function template without parameters, with an expression for its only argument. -/
def expressionSymbol (name : String) (text : List Char) : String :=
  marked (identifierCode name ++ 'I' :: 'X' :: (text ++ ['E','E','v','v']))

def expressionTree (name : String) (node : Node) : Node :=
  .mangledName (.encoding ⟨.templateName (.sourceName name) [node],
    some { returnType := some (.builtinType .void), parameters := [] }⟩) none

namespace Grammar

section
variable {n k : Nat} {table table' : Substitutions} {node : Node} {text rest : List Char}

theorem Expresses.reads_within (h : Expresses n table (.expression node) text table') (hk : n ≤ k)
    (hrest : Closed rest) :
    Reads true (Rules.levels k).expression (text ++ rest) table node rest table' := by
  refine ⟨fun context hc => ?_⟩
  obtain ⟨after,hread,hafter⟩ := (h.reads rest hrest).results context hc
  have halike := (Rules.levels_alike (g := sameContext) rfl hk).expression
  have heq := eq_of_alike halike rfl rfl (by simp [sameContext]) fun fault failed hfails => by
    rw [hread] at hfails
    cases hfails
  exact ⟨after,heq ▸ hread,hafter⟩

theorem expressionSymbol_reads {name : String} (hname : Identifier name)
    (h : Expresses n (({} : Substitutions).append (.sourceName name))
      (.expression node) text table')
    (hk : n ≤ k) :
    Reads true (wholeSymbol (Rules.levels (k + 4)))
      (identifierCode name ++ 'I' :: 'X' :: (text ++ ['E','E','v','v'])) {}
      (expressionTree name node)
      [] table' := by
  have hexpression : Reads true (Rules.levels k).expression (text ++ ['E','E','v','v'])
      (({} : Substitutions).append (.sourceName name)) node ['E','E','v','v'] table' :=
    h.reads_within hk (closed_end _)
  have hargument :
    Items true (Rules.levels (k + 1)).templateArg (fun _ => StartsWith isArgumentStart)
      ('X' :: (text ++ ['E','E','v','v'])) (({} : Substitutions).append (.sourceName name)) [node]
      ['E','v','v'] table' :=
    .cons rfl (nested_reads (expressionArg_reads hexpression)) (by simp) (.nil _ _)
  have harguments : Reads true (Rules.levels (k + 2)).templateArgs
      ('I' :: 'X' :: (text ++ ['E','E','v','v'])) (({} : Substitutions).append (.sourceName name))
      [node] ['v','v'] table' :=
    nested_reads (templateArgs_reads hargument fun _ _ hstarts => hstarts.head_ne rfl)
  have hunqualified : Reads true (Rules.levels (k + 2)).unqualifiedName
      (identifierCode name ++ 'I' :: 'X' :: (text ++ ['E','E','v','v'])) {} ⟨.sourceName name,{}⟩
      ('I' :: 'X' :: (text ++ ['E','E','v','v'])) {} := unqualified_reads hname rfl
  obtain ⟨c,code,hc,hcode⟩ := identifierCode_head name
  rw [hcode] at hunqualified ⊢
  have htemplate : Reads true (Rules.levels (k + 3)).name
      (c :: code ++ 'I' :: 'X' :: (text ++ ['E','E','v','v'])) {}
      ⟨.templateName (.sourceName name) [node],{ endsWithTemplateArgs := true }⟩ ['v','v'] table' :=
    nested_reads (templateName_reads (isWordStart_digit hc) hunqualified harguments)
  have hvoid : Reads true (Rules.levels (k + 3)).type ['v','v'] table' (.builtinType .void) ['v']
      table' := nested_reads (builtin_reads (.letter (c := 'v') rfl))
  refine wholeSymbol_reads (not_special (isWordStart_digit hc)) ?_
  exact functionEncoding_reads ⟨by decide,by decide⟩ htemplate (hvoid.map some)
    noEncodingParameters_reads

end

end Grammar

/-- An expression that was spelled along a table, with whatever choice of back references, is read
as that expression wherever it comes, with levels enough for the spelling: what follows is left, and
the table is the one that the spelling left. So it is as the argument of a function template, where
smaller limits only cut the reading off. -/
theorem spelled_expressions_are_read_back {n : Nat} {table table' : Substitutions} {node : Node}
    {text : List Char} (h : Expresses n table (.expression node) text table') :
    (∀ k rest context, n ≤ k → Closed rest → At true (text ++ rest) table context →
      ∃ after, (Rules.levels k).expression context = .ok node after ∧ At true rest table' after) ∧
    ∀ name, Identifier name → table = ({} : Substitutions).append (.sourceName name) →
      ∀ config : Config,
      ((expressionSymbol name text).length ≤ config.inputSizeLimit → n + 4 ≤ config.recursionLimit →
        Symbol.parse (expressionSymbol name text) config =
          .ok ⟨expressionSymbol name text,expressionTree name node,table'⟩) ∧
      ((∃ e, Symbol.parse (expressionSymbol name text) config = .error (.error e) ∧
          e.category = .limit) ∨
        Symbol.parse (expressionSymbol name text) config =
          .ok ⟨expressionSymbol name text,expressionTree name node,table'⟩) := by
  refine ⟨fun k rest context hk hrest hcontext =>
    (h.reads_within hk hrest).results context hcontext,?_⟩
  rintro name hname rfl config
  have hread : ∀ levels, n + 4 ≤ levels → Reads true (wholeSymbol (Rules.levels levels))
      (identifierCode name ++ 'I' :: 'X' :: (text ++ ['E','E','v','v'])) {}
      (expressionTree name node)
      [] table' := by
    intro levels hlevels
    obtain ⟨k,rfl⟩ := Nat.exists_eq_add_of_le' (show 4 ≤ levels by omega)
    exact expressionSymbol_reads hname h (by omega)
  refine ⟨fun hsize hlevels => parse_marked hsize (hread _ hlevels),?_⟩
  rcases parse_marked_upToLimits (Nat.le_max_left config.recursionLimit (n + 4))
    (hread _ (Nat.le_max_right _ _)) with ⟨_,hcut,e,rfl,he⟩ | hsame
  · exact .inl ⟨e,hcut,he⟩
  · exact .inr hsame

/-- `_Z1fIXplLi1Esr1aE1bEEvv` -/
theorem spelled_expressions_are_read_back_sum :
    Symbol.parse "_Z1fIXplLi1Esr1aE1bEEvv" .standard = .ok ⟨"_Z1fIXplLi1Esr1aE1bEEvv",
      expressionTree "f" (.binaryExpression .plus (.integerLiteral (.builtinType .int) "1")
        (.unresolvedName (.nestedName (.sourceName "a") (.sourceName "b")) false)),
      ⟨#[.sourceName "f"]⟩⟩ := by
  have hname : ∀ name ∈ ["f","a","b"], Identifier name := by
    simp only [List.forall_mem_cons]
    exact ⟨⟨by decide,rfl,rfl,by decide⟩,⟨by decide,rfl,rfl,by decide⟩,
      ⟨by decide,rfl,rfl,by decide⟩,
      by simp⟩
  have hone : Expresses 3 ⟨#[.sourceName "f"]⟩
      (.expression (.integerLiteral (.builtinType .int) "1")) ['L','i','1','E']
      ⟨#[.sourceName "f"]⟩ :=
    .literal (@Expresses.integer 0 _ .int ['i'] ['1'] false rfl (.letter rfl) (by simp)
      (by simp [isDigit]))
  have hscoped : Expresses 3 ⟨#[.sourceName "f"]⟩
      (.expression (.unresolvedName (.nestedName (.sourceName "a") (.sourceName "b")) false))
      ['s','r','1','a','E','1','b'] ⟨#[.sourceName "f"]⟩ :=
    .unresolved false (.inLevels (.simpleId (hname "a" (by simp)) .bare) .noSimpleIds
      (.identifier (.simpleId (hname "b" (by simp)) .bare)))
  have hsum := @Expresses.binary 3 _ _ _ _ _ .plus _ _ (by decide) hone hscoped
  exact ((spelled_expressions_are_read_back hsum).2 "f" (hname "f" (by simp)) rfl .standard).1
    (by decide) (by decide)

/-- `21a` is no identifier `1a` in an expression either. -/
theorem names_in_expressions_start_with_no_digit :
    ¬∀ name : String, name.toList ≠ [] → isAnonymousNamespace name.toList = false →
      name.toList.length < 10 ^ numberDigitsMax →
      Symbol.parse (expressionSymbol "f" (identifierCode name)) .standard =
        .ok ⟨expressionSymbol "f" (identifierCode name),
          expressionTree "f" (.unresolvedName (.sourceName name) false),⟨#[.sourceName "f"]⟩⟩ := by
  intro h
  have hparse := h "1a" (by decide) rfl (by decide)
  have hsymbol : expressionSymbol "f" (identifierCode "1a") = "_Z1fIX21aEEvv" := by
    have hone : spelled 10 1 = ['1'] := by simp [spelled,digitChar]
    have htwo : spelled 10 2 = ['2'] := by simp [spelled,digitChar]
    change String.ofList
      ('_' :: 'Z' :: (spelled 10 1 ++ _ ++ 'I' :: 'X' :: (spelled 10 2 ++ _ ++ _))) = _
    rw [hone,htwo]
    rfl
  have hfails : (Symbol.parse "_Z1fIX21aEEvv" .standard).toOption.isSome = false := by
    decide +kernel
  rw [hsymbol] at hparse
  rw [hparse] at hfails
  cases hfails

end MangledNames
