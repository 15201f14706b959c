import MangledNames.Proofs.Grammar.Reading
import MangledNames.Grammar.Production
set_option autoImplicit false

/-!
The two ways to read levels of qualifiers: inside a trial without another one, and outside on trial.
The productions are written once more over what is attempted outside, to tell a reading in which
that happens from one in which it does not.
-/

namespace MangledNames.Grammar

open Cursor

/-- Levels of qualifiers on trial, and a single level where they do not fit. -/
def triedLevels (r : Rules) (start : Context) : Parser Node := do
  match ← trial (terminatedLevels r) with
  | some name => return name
  | none =>
    abandon start.cursor.position start.substitutions.size
    singleLevel r

section
variable {context after : Context}

theorem trial_of_malformed {α : Type} {body : Parser α} {e : DemangleError}
    (he : e.category = .malformed)
    (h : body { context with speculative := true } = .error (.error e) after) :
    trial body context = .ok none { after with speculative := false } := by
  simp [trial,h,he]

theorem trial_of_fault {α : Type} {body : Parser α} {fault : Fault} (hfault : ¬fault.IsMalformed)
    (h : body { context with speculative := true } = .error fault after) :
    trial body context = .error fault { after with speculative := false } := by
  cases fault with
  | error e =>
    have he : e.category ≠ .malformed := fun he => hfault ⟨e,rfl,he⟩
    simp [trial,h,he]
  | broken promise => simp [trial,h]

theorem trial_of_ok {α : Type} {body : Parser α} {a : α}
    (h : body { context with speculative := true } = .ok a after) :
    trial body context = .ok (some a) { after with speculative := false } := by
  simp [trial,h]

end

theorem qualifierLevels_on_trial {r : Rules} {context : Context}
    (h : context.speculative = true) :
    qualifierLevels r context = terminatedLevels r context := by
  simp [qualifierLevels,h]

theorem qualifierLevels_off_trial {r : Rules} {context : Context}
    (h : context.speculative = false) :
    qualifierLevels r context = triedLevels r context context := by
  unfold qualifierLevels
  rw [bind_apply,get_apply]
  simp only [h]
  rfl

section
variable {r : Rules} {context after : Context}

/-- A trial that the text does not fit is as if it had never been. -/
theorem triedLevels_of_malformed {e : DemangleError}
    (h : context.speculative = false) (he : e.category = .malformed)
    (hfails : terminatedLevels r { context with speculative := true } = .error (.error e) after)
    (honward : Context.Onward { context with speculative := true } after) :
    triedLevels r context context = singleLevel r context := by
  have hback : context.Onward { after with speculative := false } :=
    ⟨honward.cursor,honward.entries,honward.recursionLimit,honward.depth,
      honward.templateArgsAllowed,h.symm⟩
  unfold triedLevels
  rw [bind_apply,trial_of_malformed he hfails]
  change (abandon context.cursor.position context.substitutions.size >>= fun _ =>
    singleLevel r) _ = _
  rw [bind_apply,abandon_apply hback]

theorem triedLevels_of_fault {fault : Fault} (hfault : ¬fault.IsMalformed)
    (h : terminatedLevels r { context with speculative := true } = .error fault after) :
    triedLevels r context context = .error fault { after with speculative := false } := by
  rw [triedLevels,bind_apply,trial_of_fault hfault h]

theorem triedLevels_of_ok {name : Node}
    (h : terminatedLevels r { context with speculative := true } = .ok name after) :
    triedLevels r context context = .ok name { after with speculative := false } := by
  rw [triedLevels,bind_apply,trial_of_ok h]
  rfl

end

/-- Levels of qualifiers, with an attempt of one's own where no trial is going on. -/
def levelsTrying (attempt : Rules → Parser Node) (r : Rules) : Parser Node := do
  if (← get).speculative then terminatedLevels r else attempt r

theorem levelsTrying_on_trial {attempt : Rules → Parser Node} {r : Rules} {context : Context}
    (h : context.speculative = true) :
    levelsTrying attempt r context = terminatedLevels r context := by
  simp [levelsTrying,h]

theorem levelsTrying_off_trial {attempt : Rules → Parser Node} {r : Rules} {context : Context}
    (h : context.speculative = false) : levelsTrying attempt r context = attempt r context := by
  simp [levelsTrying,h]

theorem levelsTrying_triedLevels (r : Rules) :
    levelsTrying (fun r => do triedLevels r (← get)) r = qualifierLevels r := by
  funext context
  cases h : context.speculative with
  | true => rw [levelsTrying_on_trial h,qualifierLevels_on_trial h]
  | false =>
    rw [levelsTrying_off_trial h,qualifierLevels_off_trial h]
    rfl

/-- A scoped name with levels of qualifiers of one's own. -/
def scopedNameOver (levels : Parser Node) (r : Rules) : Parser Node := do
  if ← consume "srN" then qualifiedTo r (← qualifierType r)
  else if ← consume "sr" then
    if ← peekIs isDigit then levels
    else
      let qualifier ← qualifierType r
      return .nestedName qualifier (← baseUnresolvedName r)
  else baseUnresolvedName r

/-- The rules of one level more, with the attempt in place of every trial that would begin. -/
def Rules.nextTrying (attempt : Rules → Parser Node) (r : Rules) : Rules :=
  { r.next with
    unresolvedName := fun globalScope => nested do
      return .unresolvedName (← scopedNameOver (levelsTrying attempt r) r) globalScope }

def Rules.levelsTrying (attempt : Rules → Parser Node) : Nat → Rules
  | 0 => .exhausted
  | n + 1 => (Rules.levelsTrying attempt n).nextTrying attempt

/-- With the trials themselves as attempts the rules are those of the grammar. -/
theorem Rules.levelsTrying_triedLevels (n : Nat) :
    Rules.levelsTrying (fun r => do triedLevels r (← get)) n = Rules.levels n := by
  induction n with
  | zero => rfl
  | succ n ih =>
    change Rules.nextTrying _ (Rules.levelsTrying _ n) = (Rules.levels n).next
    rw [ih]
    unfold Rules.nextTrying
    rw [Grammar.levelsTrying_triedLevels]
    rfl

end MangledNames.Grammar
