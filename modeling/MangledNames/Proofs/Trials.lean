import MangledNames.Proofs.Grammar.LockstepExpressions
import MangledNames.Proofs.Grammar.AdvancingEncodings
set_option autoImplicit false

/-!
A trial that is given up leaves nothing behind, and no trial begins inside another.
-/

namespace MangledNames.Grammar

def duringTrial : Gap where
  front := []
  cut := false
  sameLimit := true
  onTrial := true

/-- Within a trial it does not matter what would be attempted outside. -/
theorem terminatedLevels_levelsTrying (attempt : Rules → Parser Node) (n : Nat)
    (context : Context) :
    terminatedLevels (Rules.levelsTrying attempt n) { context with speculative := true } =
      terminatedLevels (Rules.levels n) { context with speculative := true } := by
  rw [← Rules.levelsTrying_triedLevels n]
  refine eq_of_alike (g := duringTrial) (terminatedLevels_alike (Rules.levelsTrying_alike rfl ?_ n))
    rfl rfl (fun _ => rfl) fun _ _ _ hcut => Bool.false_ne_true ((Gap.cutLeft_iff rfl).mp hcut).1
  rintro r r' - ⟨⟩

/-- What every trial of levels of qualifiers comes to, in any context in which none is going on. A
trial that the text does not fit is as if it had never been: a single level is read from the same
context. A recursion limit that is reached inside escapes, and a success counts. The rules of the
grammar are those that attempt trials; inside of a trial any other attempts in their place come to
the same, so none begins there. -/
theorem abandoned_trials_leave_no_trace (n : Nat) (context : Context)
    (h : context.speculative = false) :
    (∀ e after, e.category = .malformed →
      terminatedLevels (Rules.levels n) { context with speculative := true } =
        .error (.error e) after →
      qualifierLevels (Rules.levels n) context = (do
        let qualifier ← simpleId (Rules.levels n)
        return .nestedName qualifier (← baseUnresolvedName (Rules.levels n)) :
          Parser Node) context) ∧
    (∀ limit after,
      terminatedLevels (Rules.levels n) { context with speculative := true } =
        .error (.error (.recursionLimitExceeded limit)) after →
      ∃ final, qualifierLevels (Rules.levels n) context =
          .error (.error (.recursionLimitExceeded limit)) final ∧
        final.depth = context.depth ∧ final.templateArgsAllowed = context.templateArgsAllowed ∧
        final.speculative = context.speculative) ∧
    (∀ name after,
      terminatedLevels (Rules.levels n) { context with speculative := true } = .ok name after →
      qualifierLevels (Rules.levels n) context = .ok name { after with speculative := false }) ∧
    Rules.levelsTrying (fun r => do triedLevels r (← get)) n = Rules.levels n ∧
    ∀ attempt : Rules → Parser Node,
      terminatedLevels (Rules.levelsTrying attempt n) { context with speculative := true } =
        terminatedLevels (Rules.levels n) { context with speculative := true } := by
  have hends := (terminatedLevels_advances (Rules.levels_advance n).paid).ends
    { context with speculative := true } trivial
  refine ⟨?_,?_,?_,Rules.levelsTrying_triedLevels n,?_⟩
  · intro e after he hfails
    rw [hfails] at hends
    rw [qualifierLevels_off_trial h]
    exact triedLevels_of_malformed h he hfails hends.1
  · intro limit after hfails
    rw [hfails] at hends
    refine ⟨{ after with speculative := false },?_,hends.1.depth,hends.1.templateArgsAllowed,h.symm⟩
    rw [qualifierLevels_off_trial h]
    refine triedLevels_of_fault ?_ hfails
    rintro ⟨e,⟨⟩,he⟩
    cases he
  · intro name after hreads
    rw [qualifierLevels_off_trial h]
    exact triedLevels_of_ok hreads
  · intro attempt
    exact terminatedLevels_levelsTrying attempt n context

/-- `1a1b` is a single level and a name: there is no `E`. -/
theorem abandoned_trials_leave_no_trace_single :
    let context : Context := { cursor := .start ['1','a','1','b'], recursionLimit := 2 }
    context.speculative = false ∧ ∃ e after, e.category = .malformed ∧
      terminatedLevels (Rules.levels 2) { context with speculative := true } =
        .error (.error e) after ∧
      qualifierLevels (Rules.levels 2) context = (do
        let qualifier ← simpleId (Rules.levels 2)
        return .nestedName qualifier (← baseUnresolvedName (Rules.levels 2)) :
          Parser Node) context := by
  intro context
  have hfails : (match terminatedLevels (Rules.levels 2) { context with speculative := true } with
      | .ok _ _ => none
      | .error fault _ => some fault) =
      some (Fault.error (.unexpectedEnd "identifier length" 4)) := by decide +kernel
  cases hrun : terminatedLevels (Rules.levels 2) { context with speculative := true } with
  | ok name after =>
    rw [hrun] at hfails
    cases hfails
  | error fault after =>
    rw [hrun] at hfails
    cases hfails
    exact ⟨rfl,_,after,rfl,rfl,
      (abandoned_trials_leave_no_trace 2 context rfl).1 _ after rfl hrun⟩

end MangledNames.Grammar
