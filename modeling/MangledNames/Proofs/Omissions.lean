import MangledNames.Proofs.Limits
import MangledNames.Proofs.Printing.Texts
set_option autoImplicit false

/-!
Leaving parameter lists or return types out never costs anything: what is printed with them is
printed without them too, and is no longer.
-/

namespace MangledNames

open Grammar Printing

/-- The configuration that also leaves out parameter lists, return types or both. -/
def Config.omitting (config : Config) (parameterList returnType : Bool) : Config :=
  { config with
    omitParameterList := config.omitParameterList || parameterList
    omitReturnType := config.omitReturnType || returnType }

theorem Config.omits_omitting (config : Config) (parameterList returnType : Bool) :
    Omits config (config.omitting parameterList returnType) where
  omitParameterList h := by simp [omitting,h]
  omitReturnType h := by simp [omitting,h]
  literalCase := rfl
  closingAngleSpace := rfl
  outputSizeLimit := Nat.le_refl _

theorem Symbol.parse_omitting (raw : String) (config : Config) (parameterList returnType : Bool) :
    parse raw (config.omitting parameterList returnType) = parse raw config := rfl

theorem Node.render_omitting {node : Node} {config : Config} (parameterList returnType : Bool)
    {text : String} (h : node.render config = .ok text) :
    ∃ text', node.render (config.omitting parameterList returnType) = .ok text' ∧
      text'.length ≤ text.length := by
  have hspares : (Sheet.blank config).Spares (.blank (config.omitting parameterList returnType)) :=
    ⟨.blank config,.blank _,Nat.le_refl _,Nat.le_refl _,Nat.le_refl _,.inl rfl⟩
  have hprint := (Halves.levels_sparing (config.omits_omitting parameterList returnType)
    (levelsOf config) {} node).print
  rw [Node.render_ending] at h ⊢
  cases hrun : (Halves.levels config (levelsOf config)).print {} node (.blank config) with
  | error fault sheet =>
    rw [hrun] at h
    cases h
  | ok _ sheet =>
    rw [hrun] at h
    cases h
    obtain ⟨_,sheet',hrun',_,hspared⟩ := hprint.results _ _ hspares _ _ hrun
    refine ⟨sheet'.output.text,?_,?_⟩
    · change ending _ ((Halves.levels _ (levelsOf config)).print {} node _) = _
      rw [hrun']
      rfl
    · rw [hspared.spares.sound.length_text,hspared.spares.sound'.length_text]
      exact hspared.spares.size

/-- Whatever the text: leaving parameter lists, return types or both out of what is printed shortens
what is printed, if it changes it at all, and fails only where printing in full fails. A text that
is no symbol is rejected the same way. -/
theorem omitting_never_hurts (raw : String) (config : Config) (parameterList returnType : Bool) :
    (∀ text, demangle raw config = .ok text →
      ∃ text', demangle raw (config.omitting parameterList returnType) = .ok text' ∧
        text'.length ≤ text.length) ∧
    (∀ fault, demangle raw (config.omitting parameterList returnType) = .error fault →
      ∃ fault', demangle raw config = .error fault') ∧
    ∀ fault, Symbol.parse raw config = .error fault →
      demangle raw config = .error fault ∧
      demangle raw (config.omitting parameterList returnType) = .error fault := by
  have shorter : ∀ text, demangle raw config = .ok text →
      ∃ text', demangle raw (config.omitting parameterList returnType) = .ok text' ∧
        text'.length ≤ text.length := by
    intro text htext
    cases hparse : Symbol.parse raw config with
    | error fault =>
      simp [demangle,hparse,bind,Except.bind] at htext
    | ok symbol =>
      simp only [demangle,Symbol.parse_omitting,hparse] at htext ⊢
      exact Node.render_omitting parameterList returnType htext
  refine ⟨shorter,fun fault hfault => ?_,fun fault hparse => ?_⟩
  · cases hfull : demangle raw config with
    | error fault' => exact ⟨fault',rfl⟩
    | ok text =>
      obtain ⟨text',htext',_⟩ := shorter text hfull
      rw [htext'] at hfault
      cases hfault
  · simp [demangle,Symbol.parse_omitting,hparse,bind,Except.bind]

/-- Without its return type, `void f<int>(int)` is shorter. -/
theorem omitting_never_hurts_template :
    demangle "_Z1fIiEvT_" = .ok "void f<int>(int)" ∧
      ∃ text', demangle "_Z1fIiEvT_" (Config.standard.omitting false true) = .ok text' ∧
        text'.length ≤ "void f<int>(int)".length := by
  have htext : demangle "_Z1fIiEvT_" = .ok "void f<int>(int)" := by decide +kernel
  exact ⟨htext,(omitting_never_hurts _ _ false true).1 _ htext⟩

/-- Where both fail they may fail differently: without its return type, which refers to no argument,
`T5_ abcdef<int>()` meets the limit of the output first. -/
theorem omitting_may_change_the_error :
    let config : Config := { outputSizeLimit := 3 }
    demangle "_Z6abcdefIiET5_v" config = .error (.error (.badTemplateParamReference 6)) ∧
      demangle "_Z6abcdefIiET5_v" (config.omitting false true) =
        .error (.error (.outputTooLarge 3)) := by decide +kernel

end MangledNames
