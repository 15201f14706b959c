import MangledNames.Proofs.Grammar.PointingEncodings
import MangledNames.Proofs.Tails
set_option autoImplicit false

/-!
The errors of a symbol point at the text they talk about, except for the kinds of constructors that
are taken over from a base class.
-/

namespace MangledNames

open Grammar

namespace Symbol

/-- The text of a symbol, read from behind its mark on. -/
def region (raw : String) : Region := ⟨raw.toList,((mark? raw.toList).getD []).length⟩

theorem Opened.contains {raw : String} {config : Config} {mark read : List Char}
    (h : Opened raw config mark read) :
    (region raw).Contains (contextBehind mark read config).cursor := by
  refine ⟨?_,?_⟩
  · simp [Cursor.text,contextBehind,region,h.text]
  · simp [Cursor.position,contextBehind,region,h.mark?_eq]

end Symbol

/-- An error of a symbol says what stands in the text at its offset, and the end of the
text is where it says it is; only the code of a constructor that is taken over is quoted
without its second letter. -/
theorem errors_point_at_the_text (raw : String) (config : Config) (e : DemangleError)
    (h : Symbol.parse raw config = .error (.error e)) :
    e.PointsInto (Symbol.region raw) ∨ e.Misquotes (Symbol.region raw) := by
  by_cases hsize : raw.length > config.inputSizeLimit
  · rw [Symbol.parse_tooLarge hsize] at h
    cases h
    exact .inl trivial
  cases hmark : Symbol.mark? raw.toList with
  | none =>
    have hcontext : Symbol.contextOf raw config = .error (.error (.notMangledName raw)) := by
      unfold Symbol.contextOf
      rw [if_neg hsize,hmark]
    unfold Symbol.parse at h
    rw [hcontext] at h
    cases h
    exact .inl trivial
  | some mark =>
    obtain ⟨read,hread,_⟩ := Symbol.mark?_append hmark
    have hopened : Symbol.Opened raw config mark read :=
      ⟨by omega,Symbol.mark?_of_append hmark,hread⟩
    have hends :=
      (wholeSymbol_points (Rules.levels_point (Symbol.region raw) config.recursionLimit)).ends
      (Symbol.contextBehind mark read config) hopened.contains
    rw [hopened.parse_ending] at h
    cases hwhole : wholeSymbol (Rules.levels config.recursionLimit)
        (Symbol.contextBehind mark read config) with
    | ok tree after =>
      rw [hwhole] at h
      cases h
    | error fault after =>
      rw [hwhole] at h hends
      cases h
      exact hends.2

/-- `_Z1fS5_` refers to an entry that is not there: the text at offset 4 spells its index. -/
theorem errors_point_at_the_text_bad_reference :
    Symbol.parse "_Z1fS5_" .standard = .error (.error (.badBackReference 6 0 4)) ∧
      (DemangleError.badBackReference 6 0 4).PointsInto (Symbol.region "_Z1fS5_") := by
  have hfails : Symbol.parse "_Z1fS5_" .standard = .error (.error (.badBackReference 6 0 4)) :=
    Symbol.parse_eq_error (by decide +kernel)
  exact ⟨hfails,(errors_point_at_the_text "_Z1fS5_" .standard _ hfails).resolve_right id⟩

/-- `_ZN1aCI9E` has `CI9` where the error about it says `C9`. -/
theorem inherited_constructors_are_misquoted :
    ¬∀ (raw : String) (config : Config) (e : DemangleError),
      Symbol.parse raw config = .error (.error e) → e.PointsInto (Symbol.region raw) := by
  intro h
  have hfails : Symbol.parse "_ZN1aCI9E" .standard =
      .error (.error (.unexpectedToken "constructor or destructor" 5 "C9")) :=
    Symbol.parse_eq_error (by decide +kernel)
  obtain ⟨_,_,hquoted⟩ := h _ _ _ hfails
  have hdiffers : ¬"C9".toList <+: (Symbol.region "_ZN1aCI9E").text.drop 5 := by decide
  exact hdiffers hquoted

end MangledNames
