import MangledNames.Proofs.Grammar.SoundEncodings
import MangledNames.Proofs.Printing.SoundHalves
import MangledNames.Symbol
set_option autoImplicit false

/-!
No text and no configuration makes the library break a promise: every run ends with a value or with
an error that the caller is told about.
-/

namespace MangledNames

open Grammar Printing

def Outcome {α : Type} (good : α → Prop) : Except Fault α → Prop
  | .ok a => good a
  | .error fault => fault.IsError

theorem Outcome.bind {α β : Type} {p : α → Prop} {g : β → Prop} {m : Except Fault α}
    {q : α → Except Fault β} (h : Outcome p m) (hq : ∀ a, p a → Outcome g (q a)) :
    Outcome g (m >>= q) := by
  cases m with
  | error fault => exact h
  | ok a => exact hq a h

namespace Symbol

/-- A tree in which every node keeps its promises, and a table of such trees. -/
structure Sound (symbol : Symbol) : Prop where
  tree : symbol.tree.Sound
  substitutions : ∀ node ∈ symbol.substitutions.toList, node.Sound

theorem mark?_append {text mark : List Char} (h : mark? text = some mark) :
    ∃ rest, text = mark ++ rest ∧ ∀ read, (mark? (mark ++ read)).isSome := by
  unfold mark? at h
  split at h
  · rename_i hprefix
    cases h
    obtain ⟨rest,hrest⟩ := List.isPrefixOf_iff_prefix.mp hprefix
    exact ⟨rest,hrest.symm,fun read => by simp [mark?]⟩
  · split at h
    · rename_i hprefix
      cases h
      obtain ⟨rest,hrest⟩ := List.isPrefixOf_iff_prefix.mp hprefix
      refine ⟨rest,hrest.symm,fun read => ?_⟩
      simp [mark?]
    · cases h

/-- A symbol is read from behind its mark on, with an empty table. -/
theorem contextOf_outcome (raw : String) (config : Config) :
    Outcome (fun context => context.Sound ∧ (mark? raw.toList).isSome ∧
      ∀ after : Cursor, context.cursor.Leads after → (mark? after.passed.reverse).isSome)
      (contextOf raw config) := by
  unfold contextOf
  split
  · exact ⟨_,rfl⟩
  · cases hmark : mark? raw.toList with
    | none => exact ⟨_,rfl⟩
    | some mark =>
      obtain ⟨rest,hrest,hmarked⟩ := mark?_append hmark
      refine ⟨?_,rfl,?_⟩
      · intro node hnode
        cases hnode
      · rintro after ⟨read,hread,_⟩
        have hpassed :
            (Cursor.advance mark.length (Cursor.start raw.toList)).passed = mark.reverse := by
          rw [hrest,Cursor.start,Cursor.advance_eq]
          simp
        rw [hread,hpassed]
        simpa using hmarked read

theorem ofTree_outcome {raw : List Char} {tree : Node} {substitutions : Substitutions}
    (hmark : (mark? raw).isSome) (htree : tree.Sound)
    (hsubstitutions : ∀ node ∈ substitutions.toList, node.Sound) :
    Outcome Sound (ofTree raw tree substitutions) := by
  rw [ofTree,if_pos hmark]
  exact ⟨htree,hsubstitutions⟩

theorem parse_outcome (raw : String) (config : Config) : Outcome Sound (parse raw config) := by
  refine (contextOf_outcome raw config).bind ?_
  rintro context ⟨hcontext,hmark,_⟩
  have hrun := (wholeSymbol_runs (Rules.levels_sound context.levelsLeft)).ends context hcontext
  dsimp only [reading]
  cases hresult : wholeSymbol (Rules.levels context.levelsLeft) context with
  | ok tree after =>
    rw [hresult] at hrun
    exact ofTree_outcome hmark hrun.2.2 (hrun.1.sound hcontext)
  | error fault after =>
    rw [hresult] at hrun
    exact hrun.2

theorem parseWithTail_outcome (raw : String) (config : Config) :
    Outcome (fun found => found.1.Sound) (parseWithTail raw config) := by
  refine (contextOf_outcome raw config).bind ?_
  rintro context ⟨hcontext,_,hmark⟩
  have hrun := (mangledName_runs (Rules.levels_sound context.levelsLeft)).ends context hcontext
  dsimp only [reading]
  cases hresult : mangledName (Rules.levels context.levelsLeft) context with
  | ok tree after =>
    rw [hresult] at hrun
    exact (ofTree_outcome (hmark _ hrun.1.cursor) hrun.2.2 (hrun.1.sound hcontext)).bind
      fun _ h => h
  | error fault after =>
    rw [hresult] at hrun
    exact hrun.2

end Symbol

theorem render_outcome {node : Node} (h : node.Sound) (config : Config) :
    Outcome (fun _ => True) (node.render config) := by
  have hblank : (Sheet.blank config).Sound := ⟨by simp [Sheet.blank],rfl,Nat.zero_le _⟩
  have hscopes : SoundScopes ({} : Place).scopes := by simp [SoundScopes]
  have hrun := (print_prints (Halves.levels_sound config (levelsOf config)) hscopes h).ends _ hblank
  unfold Node.render
  cases hresult : (Halves.levels config (levelsOf config)).print {} node (Sheet.blank config) with
  | ok _ sheet => exact trivial
  | error fault sheet =>
    rw [hresult] at hrun
    exact hrun.2

theorem demangle_outcome (raw : String) (config : Config) :
    Outcome (fun _ => True) (demangle raw config) :=
  (Symbol.parse_outcome raw config).bind fun _ h => render_outcome h.tree config

theorem Outcome.cases {α : Type} {p : α → Prop} {m : Except Fault α} (h : Outcome p m) :
    (∃ a, m = .ok a ∧ p a) ∨ ∃ e, m = .error (.error e) := by
  cases m with
  | ok a => exact .inl ⟨a,rfl,h⟩
  | error fault =>
    obtain ⟨e,rfl⟩ := h
    exact .inr ⟨e,rfl⟩

/-- Every text, and so every decoding of bytes, ends in a value or in an error of the symbol or of a
limit. No promise is broken on the way, and no node of the value breaks its own. -/
theorem every_run_keeps_its_promises (raw : String) (config : Config) :
    ((∃ text, demangle raw config = .ok text) ∨ ∃ e, demangle raw config = .error (.error e)) ∧
      ((∃ symbol, Symbol.parse raw config = .ok symbol ∧ symbol.Sound) ∨
        ∃ e, Symbol.parse raw config = .error (.error e)) ∧
      ((∃ found, Symbol.parseWithTail raw config = .ok found ∧ found.1.Sound) ∨
        ∃ e, Symbol.parseWithTail raw config = .error (.error e)) := by
  refine ⟨?_,(Symbol.parse_outcome raw config).cases,
    (Symbol.parseWithTail_outcome raw config).cases⟩
  rcases (demangle_outcome raw config).cases with ⟨text,htext,_⟩ | herror
  · exact .inl ⟨text,htext⟩
  · exact .inr herror

end MangledNames
