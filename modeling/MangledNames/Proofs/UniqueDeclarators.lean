import MangledNames.Proofs.Limits
import MangledNames.Proofs.Printing.DeclaredHalves
set_option autoImplicit false

/-!
The text of a type tells the type: however pointers, members, arrays and functions alternate, no two
types that are made of words and declarators are printed alike.
-/

namespace MangledNames

open Printing

/-- A declared type is printed as its tokens, or cut off by a limit. -/
theorem Printing.Declared.render_spells {t : Node} (h : Declared t) (config : Config) :
    CutOff (t.render config) ∨
      ∃ text, t.render config = .ok text ∧ tokens text.toList = spelling t := by
  obtain ⟨l,r,hhalved⟩ := h.halved config
  have hprint := hhalved.print (levelsOf config) (.blank config)
  unfold Node.render
  cases hresult : (Halves.levels config (levelsOf config)).print {} t (.blank config) with
  | ok _ sheet =>
    rw [hresult] at hprint
    obtain ⟨added,hadded,htokens⟩ := hprint
    have hchunks : sheet.output.chunks.toList = added := hadded
    refine .inr ⟨_,rfl,?_⟩
    rw [Output.text,hchunks]
    exact htokens
  | error fault sheet =>
    rw [hresult] at hprint
    exact .inl ⟨fault,rfl,hprint⟩

/-- Different types are printed as different texts, within the limits. -/
theorem different_types_are_printed_differently (t u : Node) (ht : Declared t) (hu : Declared u)
    (hne : t ≠ u) (config : Config) :
    CutOff (t.render config) ∨ CutOff (u.render config) ∨
      ∃ text text', t.render config = .ok text ∧ u.render config = .ok text' ∧ text ≠ text' := by
  rcases ht.render_spells config with hcut | ⟨text,htext,htokens⟩
  · exact .inl hcut
  · rcases hu.render_spells config with hcut | ⟨text',htext',htokens'⟩
    · exact .inr (.inl hcut)
    · refine .inr (.inr ⟨text,text',htext,htext',fun hsame => hne ?_⟩)
      rw [← hsame,htokens] at htokens'
      exact ht.eq_of_spelling hu htokens'

/-- An array of three pointers to members of `A`, and a pointer to a member that is an array. -/
theorem different_types_are_printed_differently_arrays :
    let t :=
      Node.arrayType (.pointerToMemberType (.sourceName "A") (.builtinType .int)) (some (.size 3))
    let u :=
      Node.pointerToMemberType (.sourceName "A") (.arrayType (.builtinType .int) (some (.size 3)))
    Declared t ∧ Declared u ∧ t ≠ u ∧ (t.render .standard).toOption = some "int A::* [3]" ∧
      (u.render .standard).toOption = some "int(A::*) [3]" ∧
      (CutOff (t.render .standard) ∨ CutOff (u.render .standard) ∨
        ∃ text text', t.render .standard = .ok text ∧ u.render .standard = .ok text' ∧
        text ≠ text') := by
  intro t u
  have hnamed : ∀ type ∈ BuiltinType.named, "A" ≠ type.name := by decide +kernel
  have hname : IsClassName "A" := {
    chars := by decide
    first := ⟨'A',by decide,by decide⟩
    notBuiltin := by
      intro type _ hsame
      rcases type.floatN_or_named with ⟨bits,rfl⟩ | htype
      · have hchars := congrArg String.toList hsame
        simp [BuiltinType.name] at hchars
      · exact hnamed type htype hsame
    notQualifier := by decide }
  have hint : Declared (.builtinType .int) :=
    .builtin (show "int".toList.all isWordChar = true by decide)
  have ht : Declared t := .array (some 3) (.member hname hint)
  have hu : Declared u := .member hname (.array (some 3) hint)
  have hne : t ≠ u := by simp [t,u]
  exact ⟨ht,hu,hne,by decide +kernel,by decide +kernel,
    different_types_are_printed_differently t u ht hu hne .standard⟩

/-- `decltype(auto)` is more than one word: a class may be called `decltype`. -/
example :
    ((Node.arrayType (.builtinType .decltypeAuto) (some (.size 3))).render .standard).toOption =
      ((Node.functionType {
        returnType := .arrayType (.sourceName "decltype") (some (.size 3))
        parameters := [.builtinType .auto] }).render .standard).toOption := by
  decide +kernel

end MangledNames
