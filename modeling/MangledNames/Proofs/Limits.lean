import MangledNames.Proofs.Grammar.LockstepExpressions
import MangledNames.Proofs.Printing.Lockstep
import MangledNames.Symbol
set_option autoImplicit false

/-!
The limits never change an answer: a run within smaller limits is cut off, or it ends as the run
within larger ones does.
-/

namespace MangledNames

open Grammar Printing

/-- The same options, and no limit above that of the other configuration. -/
structure Config.Within (config config' : Config) : Prop where
  omitParameterList : config.omitParameterList = config'.omitParameterList
  omitReturnType : config.omitReturnType = config'.omitReturnType
  literalCase : config.literalCase = config'.literalCase
  closingAngleSpace : config.closingAngleSpace = config'.closingAngleSpace
  recursionLimit : config.recursionLimit ≤ config'.recursionLimit
  outputSizeLimit : config.outputSizeLimit ≤ config'.outputSizeLimit
  inputSizeLimit : config.inputSizeLimit ≤ config'.inputSizeLimit

theorem Config.Within.sameOptions {config config' : Config} (h : config.Within config') :
    SameOptions false config config' where
  omitParameterList := h.omitParameterList
  omitReturnType := h.omitReturnType
  literalCase := h.literalCase
  closingAngleSpace := h.closingAngleSpace
  outputSizeLimit _ := h.outputSizeLimit

section
variable {α β : Type}

def CutOff (m : Except Fault α) : Prop := ∃ fault, m = .error fault ∧ fault.IsLimit

/-- The first outcome is cut off by a limit, or is the second. -/
def UpToLimits (m m' : Except Fault α) : Prop := CutOff m ∨ m = m'

theorem UpToLimits.bind {m m' : Except Fault α} {q q' : α → Except Fault β} (h : UpToLimits m m')
    (hq : ∀ a, UpToLimits (q a) (q' a)) : UpToLimits (m >>= q) (m' >>= q') := by
  rcases h with ⟨fault,rfl,hfault⟩ | rfl
  · exact .inl ⟨fault,rfl,hfault⟩
  · cases m with
    | ok a => exact hq a
    | error fault => exact .inr rfl

def ending {σ : Type} (q : α → σ → Except Fault β) : EStateM.Result Fault σ α → Except Fault β
  | .ok a s => q a s
  | .error fault _ => .error fault

/-- Runs in lockstep end alike, unless the first is cut off. -/
theorem UpToLimits.of_matches {σ : Type} {S : Simulation σ σ}
    {result result' : EStateM.Result Fault σ α} (h : S.Matches Eq result result')
    (hleft : ∀ fault, S.cutLeft fault → fault.IsLimit) (hright : ∀ fault, ¬S.cutRight fault)
      (hfaults : ∀ f g, S.faults f g → f = g)
    {q : α → σ → Except Fault β} (hq : ∀ a s t, S.states s t → q a s = q a t) :
    UpToLimits (ending q result) (ending q result') := by
  cases result with
  | ok a s =>
    cases result' with
    | ok b t =>
      obtain ⟨rfl,hst⟩ := h
      exact .inr (hq a s t hst)
    | error g t => exact absurd h (hright g)
  | error f s =>
    cases result' with
    | ok b t => exact .inl ⟨f,rfl,hleft f h⟩
    | error g t =>
      rcases h with hcut | hcut | ⟨hfg,_⟩
      · exact .inl ⟨f,rfl,hleft f hcut⟩
      · exact absurd hcut (hright g)
      · exact .inr (congrArg Except.error (hfaults f g hfg))

end

def Grammar.sameText : Gap where
  front := []
  cut := true
  sameLimit := false
  onTrial := false

/-- Levels only cut a reading off. -/
theorem Symbol.ending_upToLimits (raw : String) {n k : Nat} (hn : n ≤ k)
    {context context' : Context} (h : sameText.Same context context') :
    UpToLimits
      (ending (fun tree after => ofTree raw.toList tree after.substitutions)
        (wholeSymbol (Rules.levels n) context))
      (ending (fun tree after => ofTree raw.toList tree after.substitutions)
        (wholeSymbol (Rules.levels k) context')) := by
  have hrun := wholeSymbol_alike (Rules.levels_alike (g := sameText) rfl hn)
  refine UpToLimits.of_matches (hrun.results _ _ h)
    (fun _ hcut => ((Gap.cutLeft_iff rfl).mp hcut).2) (fun _ hcut => hcut)
    (fun f g hfg => (hfg.trans f.later_zero).symm) ?_
  exact fun tree s t hst => congrArg (ofTree raw.toList tree) hst.substitutions.symm

theorem Symbol.parse_ending {raw : String} {config : Config} {mark : List Char}
    (hsize : ¬raw.length > config.inputSizeLimit) (hmark : mark? raw.toList = some mark) :
    parse raw config = ending (fun tree after => ofTree raw.toList tree after.substitutions)
      (wholeSymbol (Rules.levels config.recursionLimit)
        { cursor := Cursor.advance mark.length (Cursor.start raw.toList)
          recursionLimit := config.recursionLimit }) := by
  unfold parse contextOf
  rw [if_neg hsize,hmark]
  dsimp only [bind,Except.bind,reading,Context.levelsLeft]
  cases wholeSymbol (Rules.levels config.recursionLimit)
    { cursor := Cursor.advance mark.length (Cursor.start raw.toList)
      recursionLimit := config.recursionLimit } <;> rfl

theorem Node.render_ending (node : Node) (config : Config) :
    node.render config = ending (fun _ sheet => .ok sheet.output.text)
      ((Halves.levels config (levelsOf config)).print {} node (.blank config)) := by
  unfold Node.render
  cases (Halves.levels config (levelsOf config)).print {} node (.blank config) <;> rfl

theorem Symbol.parse_tooLarge {raw : String} {config : Config}
    (h : raw.length > config.inputSizeLimit) :
    parse raw config = .error (.error (.inputTooLarge raw.length config.inputSizeLimit)) := by
  unfold parse contextOf
  rw [if_pos h]
  rfl

theorem Symbol.parse_upToLimits (raw : String) {config config' : Config}
    (h : config.Within config') :
    UpToLimits (parse raw config) (parse raw config') := by
  by_cases hsize : raw.length > config.inputSizeLimit
  · exact .inl ⟨_,parse_tooLarge hsize,_,rfl,rfl⟩
  · have hsize' : ¬raw.length > config'.inputSizeLimit := by
      have := h.inputSizeLimit
      omega
    cases hmark : mark? raw.toList with
    | none =>
      unfold parse contextOf
      rw [if_neg hsize,if_neg hsize',hmark]
      exact .inr rfl
    | some mark =>
      rw [parse_ending hsize hmark,parse_ending hsize' hmark]
      refine ending_upToLimits raw h.recursionLimit ?_
      exact ⟨by simp [sameText,Cursor.behind],rfl,rfl,rfl,rfl,by simp [sameText],by simp [sameText]⟩

theorem Node.render_upToLimits (node : Node) {config config' : Config} (h : config.Within config') :
    UpToLimits (node.render config) (node.render config') := by
  have hlevels : levelsOf config ≤ levelsOf config' := Nat.mul_le_mul_left 2 h.recursionLimit
  have hprint := (Halves.levels_lockstep h.sameOptions hlevels {} node).print
  have hblank : Sheet.Same false (.blank config) (.blank config') :=
    ⟨rfl,rfl,fun _ => rfl,fun _ => h.outputSizeLimit⟩
  have htext : ∀ s t, Sheet.Same false s t → s.output.text = t.output.text := by
    intro s t hst
    unfold Output.text
    rw [hst.chunks]
  rw [node.render_ending,node.render_ending]
  exact UpToLimits.of_matches (hprint.results _ _ hblank) (fun _ hcut => hcut)
    (fun _ hcut => Bool.false_ne_true hcut.1) (fun _ _ hfg => hfg.1)
    fun _ s t hst => congrArg Except.ok (htext s t hst)

/-- Whatever the text, a run within smaller limits is cut off by one of them or ends exactly as the
run within larger limits does. -/
theorem smaller_limits_only_cut_off (raw : String) (config config' : Config)
    (h : config.Within config') :
    (∃ e, demangle raw config = .error (.error e) ∧ e.category = .limit) ∨
      demangle raw config = demangle raw config' := by
  have hboth : UpToLimits (demangle raw config) (demangle raw config') :=
    (Symbol.parse_upToLimits raw h).bind fun symbol => symbol.tree.render_upToLimits h
  rcases hboth with ⟨_,hcut,e,rfl,he⟩ | hsame
  · exact .inl ⟨e,hcut,he⟩
  · exact .inr hsame

/-- Nine levels and nine characters are enough for `f()`, two characters are not. -/
theorem smaller_limits_only_cut_off_small :
    let small : Config := { recursionLimit := 9, outputSizeLimit := 9, inputSizeLimit := 9 }
    let smaller : Config := { recursionLimit := 9, outputSizeLimit := 2, inputSizeLimit := 9 }
    small.Within .standard ∧ demangle "_Z1fv" small = .ok "f()" ∧
      demangle "_Z1fv" .standard = .ok "f()" ∧ smaller.Within small ∧
      demangle "_Z1fv" smaller = .error (.error (.outputTooLarge 2)) := by
  intro small smaller
  have hsmall : small.Within .standard := ⟨rfl,rfl,rfl,rfl,by decide,by decide,by decide⟩
  have hsmaller : smaller.Within small := ⟨rfl,rfl,rfl,rfl,by decide,by decide,by decide⟩
  have htext : demangle "_Z1fv" small = .ok "f()" := by decide +kernel
  refine ⟨hsmall,htext,?_,hsmaller,by decide +kernel⟩
  rcases smaller_limits_only_cut_off "_Z1fv" _ _ hsmall with ⟨e,hcut,_⟩ | hsame
  · rw [htext] at hcut
    cases hcut
  · exact hsame.symm.trans htext

end MangledNames
