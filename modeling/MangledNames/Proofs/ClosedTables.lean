import MangledNames.Proofs.Grammar.RootingEncodings
import MangledNames.Proofs.Tails
set_option autoImplicit false

/-!
The table of substitutions of a symbol is closed: whatever an entry is made of is builtin,
abbreviated or an entry before it.
-/

namespace MangledNames

open Grammar

/-- No entry of the table of a symbol is a builtin type. What a type among the entries is made of,
and what a template or a member among them belongs to, needs no entry or has one before it. -/
theorem substitution_tables_are_closed (raw : String) (config : Config) (symbol : Symbol)
    (h : Symbol.parse raw config = .ok symbol ∨
      ∃ tail, Symbol.parseWithTail raw config = .ok (symbol,tail)) :
    ClosedTable symbol.substitutions.toList := by
  have read : ∃ mark read after, mangledName (Rules.levels config.recursionLimit)
      (Symbol.contextBehind mark read config) = .ok symbol.tree after ∧
        symbol.substitutions = after.substitutions := by
    rcases h with h | ⟨tail,h⟩
    · obtain ⟨mark,read,after,_,hread,_,hsymbol⟩ := Symbol.parse_ok h
      exact ⟨mark,read,after,hread,congrArg Symbol.substitutions hsymbol⟩
    · obtain ⟨mark,read,after,_,hread,hsymbol,_⟩ := Symbol.parseWithTail_ok h
      exact ⟨mark,read,after,hread,congrArg Symbol.substitutions hsymbol⟩
  obtain ⟨mark,read,after,hread,htable⟩ := read
  have hends := ((mangledName_closes (Rules.levels_root config.recursionLimit)).starting
    (Symbol.contextBehind mark read config)).ends nofun
  rw [hread] at hends
  rw [htable]
  exact hends.1

/-- `_Z1fPKcS0_` spells `char const` and a pointer to it, and refers to the pointer. -/
theorem substitution_tables_are_closed_pointer :
    ∃ symbol, Symbol.parse "_Z1fPKcS0_" .standard = .ok symbol ∧ symbol.substitutions.size = 2 ∧
      ClosedTable symbol.substitutions.toList := by
  have hsize :
      (Symbol.parse "_Z1fPKcS0_" .standard).toOption.map (·.substitutions.size) = some 2 := by
    decide +kernel
  cases hread : Symbol.parse "_Z1fPKcS0_" .standard with
  | error fault =>
    rw [hread] at hsize
    cases hsize
  | ok symbol =>
    rw [hread] at hsize
    exact ⟨symbol,rfl,Option.some.inj hsize,
      substitution_tables_are_closed "_Z1fPKcS0_" .standard symbol (.inl hread)⟩

end MangledNames
