import MangledNames.Proofs.Grammar.DecodingDeclarations
import MangledNames.Proofs.WholeSymbol
set_option autoImplicit false

/-!
The symbol of a function, spelled in full, is read as the function that it declares.
-/

namespace MangledNames

open Cursor Grammar

def Grammar.Declaration.symbol (d : Declaration) : String := marked d.code

/-- Functions and member functions with any template arguments, constructors, destructors, operators
and conversions: the symbol is read as the name and the signature that it spells, and smaller limits
only cut the reading off. -/
theorem declared_functions_are_read_back (d : Declaration) (h : d.Proper) (config : Config) :
    (d.symbol.length ≤ config.inputSizeLimit → d.levels ≤ config.recursionLimit →
      ∃ table, Symbol.parse d.symbol config = .ok ⟨d.symbol,d.tree,table⟩) ∧
    ((∃ e, Symbol.parse d.symbol config = .error (.error e) ∧ e.category = .limit) ∨
      ∃ table, Symbol.parse d.symbol config = .ok ⟨d.symbol,d.tree,table⟩) := by
  constructor
  · intro hsize hlevels
    obtain ⟨table,hread⟩ := Declaration.reads h hlevels
    exact ⟨table,parse_marked hsize hread⟩
  · obtain ⟨table,hread⟩ := Declaration.reads h (Nat.le_max_right config.recursionLimit d.levels)
    rcases parse_marked_upToLimits (Nat.le_max_left _ _) hread with ⟨_,hcut,e,rfl,he⟩ | hsame
    · exact .inl ⟨e,hcut,he⟩
    · exact .inr ⟨table,hsame⟩

/-- `_ZNK1AcvT_IiEEv`: the arguments belong to the conversion. -/
theorem declared_functions_are_read_back_conversion :
    ∃ table, Symbol.parse "_ZNK1AcvT_IiEEv" .standard = .ok ⟨"_ZNK1AcvT_IiEEv",
      .mangledName (.encoding ⟨
        .templateName (.nestedName (.sourceName "A") (.conversionOperatorName (.templateParam 0)))
          [.builtinType .int],
        some { returnType := none, parameters := [], cv := { const := true } }⟩) none,table⟩ := by
  have hA : Identifier "A" := ⟨by decide,rfl,rfl,by decide⟩
  let d : Declaration := {
    placement := .member [] ⟨"A",none⟩ (.conversion (.templateParam 0)) { const := true } none
    arguments := some [.builtinType .int]
    returnType := none
    parameters := [] }
  have hparam : (0 : Nat) ≤ 10 ^ numberDigitsMax := Nat.zero_le _
  have hproper : d.Proper := {
    placement :=
      ⟨by simp,⟨hA,by simp [ProperArguments]⟩,.templateParam hparam,fun _ => .templateParam hparam⟩
    arguments := by
      rintro types ⟨rfl⟩
      exact .moreTypes (.builtin (.letter (c := 'i') rfl)) .noTypes
    returns := rfl
    returnType := by simp [d]
    parameters := .noTypes
    notVoid := by simp [d] }
  exact (declared_functions_are_read_back d hproper .standard).1 (by decide) (by decide)

/-- `_Z21av` is no function `1a`: its name would be 21 characters long. -/
theorem function_names_start_with_no_digit :
    ¬∀ name : String, name.toList ≠ [] → isAnonymousNamespace name.toList = false →
      name.toList.length < 10 ^ numberDigitsMax →
      ∃ table, Symbol.parse (Declaration.symbol ⟨.free (.identifier name),none,none,[]⟩) .standard =
        .ok ⟨Declaration.symbol ⟨.free (.identifier name),none,none,[]⟩,
          Declaration.tree ⟨.free (.identifier name),none,none,[]⟩,table⟩ := by
  intro h
  obtain ⟨table,hparse⟩ := h "1a" (by decide) rfl (by decide)
  have hsymbol : Declaration.symbol ⟨.free (.identifier "1a"),none,none,[]⟩ = "_Z21av" := by
    have htwo : spelled 10 2 = ['2'] := by simp [spelled,digitChar]
    change String.ofList ('_' :: 'Z' :: (spelled 10 2 ++ _ ++ _ ++ _)) = _
    rw [htwo]
    rfl
  have hfails : (Symbol.parse "_Z21av" .standard).toOption.isSome = false := by decide +kernel
  rw [hsymbol] at hparse
  rw [hparse] at hfails
  cases hfails

end MangledNames
