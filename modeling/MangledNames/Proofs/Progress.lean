import MangledNames.Proofs.Grammar.AdvancingEncodings
import MangledNames.Proofs.Limits
set_option autoImplicit false

/-!
Every production that succeeds moves on through the text and only adds to the table, and no text
keeps a production going forever: the levels of nesting that a text can use up are bounded by its
length, and more of them change nothing.
-/

namespace MangledNames.Grammar

/-- The productions that read a part of a symbol, and the one that reads all of it. -/
inductive Nonterminal where
  | encoding
  | specialName
  | name
  | nestedName
  | localName
  | unqualifiedName
  | templateArgs
  | templateArg
  | type
  | expression
  | exprPrimary
  | unresolvedName (globalScope : Bool)
  | simpleId
  | baseUnresolvedName
  | mangledName
  deriving DecidableEq, Repr

namespace Nonterminal

abbrev Value : Nonterminal → Type
  | name | nestedName | localName | unqualifiedName => Named
  | templateArgs => List Node
  | _ => Node

def read (r : Rules) : (p : Nonterminal) → Parser p.Value
  | encoding => r.encoding
  | specialName => r.specialName
  | name => r.name
  | nestedName => r.nestedName
  | localName => r.localName
  | unqualifiedName => r.unqualifiedName
  | templateArgs => r.templateArgs
  | templateArg => r.templateArg
  | type => r.type
  | expression => r.expression
  | exprPrimary => r.exprPrimary
  | unresolvedName globalScope => r.unresolvedName globalScope
  | simpleId => Grammar.simpleId r
  | baseUnresolvedName => Grammar.baseUnresolvedName r
  | mangledName => Grammar.mangledName r

theorem read_advances {levels : Nat} {r : Rules} (hr : r.Advance (levels - ·)) (p : Nonterminal) :
    Advances (levels - 3) 1 (p.read r) := by
  cases p with
  | encoding => exact hr.paid.encoding
  | specialName => exact hr.paid.specialName
  | name => exact hr.paid.name
  | nestedName => exact hr.paid.nestedName
  | localName => exact hr.paid.localName
  | unqualifiedName => exact hr.paid.unqualifiedName
  | templateArgs => exact hr.paid.templateArgs
  | templateArg => exact hr.paid.templateArg
  | type => exact hr.paid.type
  | expression => exact hr.paid.expression
  | exprPrimary => exact hr.paid.exprPrimary
  | unresolvedName globalScope => exact hr.paid.unresolvedName globalScope
  | simpleId => exact (simpleId_advances hr.paid).lower (Nat.le_add_right _ 4)
  | baseUnresolvedName => exact (baseUnresolvedName_advances hr.paid).lower (Nat.le_add_right _ 4)
  | mangledName => exact (mangledName_advances hr).lower (by omega)

theorem read_alike {g : Gap} {r r' : Rules} (h : r.Alike g r') (p : Nonterminal) :
    g.lockstep.Alike (p.read r) (p.read r') := by
  cases p with
  | encoding => exact h.encoding
  | specialName => exact h.specialName
  | name => exact h.name
  | nestedName => exact h.nestedName
  | localName => exact h.localName
  | unqualifiedName => exact h.unqualifiedName
  | templateArgs => exact h.templateArgs
  | templateArg => exact h.templateArg
  | type => exact h.type
  | expression => exact h.expression
  | exprPrimary => exact h.exprPrimary
  | unresolvedName globalScope => exact h.unresolvedName globalScope
  | simpleId => exact simpleId_alike h
  | baseUnresolvedName => exact baseUnresolvedName_alike h
  | mangledName => exact mangledName_alike h

end Nonterminal

/-- The place moved on within the same text, no entry of the table was lost or changed, and nothing
else is different. -/
structure MovesOn (before after : Context) : Prop where
  moved : before.cursor.position < after.cursor.position
  inside : after.cursor.position ≤ after.cursor.length
  text : after.cursor.text = before.cursor.text
  entries : before.substitutions.toList <+: after.substitutions.toList
  depth : after.depth = before.depth
  templateArgsAllowed : after.templateArgsAllowed = before.templateArgsAllowed
  speculative : after.speculative = before.speculative

theorem movesOn_of_onward {before after : Context} (h : before.Onward after)
    (hmoved : 1 ≤ after.cursor.position - before.cursor.position) : MovesOn before after where
  moved := by omega
  inside := Nat.le_add_right _ _
  text := h.cursor.text_eq.symm
  entries := h.entries
  depth := h.depth
  templateArgsAllowed := h.templateArgsAllowed
  speculative := h.speculative

/-- Levels that no reading of the rest of the text uses up. -/
def Context.levelsEnough (context : Context) : Nat := 4 * (context.cursor.rest.length + 1)

theorem distance_le {before after : Context} (h : before.Onward after) :
    after.cursor.position - before.cursor.position ≤ before.cursor.rest.length := by
  have hlength := h.cursor.length_eq
  simp only [Cursor.length,Cursor.position] at hlength ⊢
  omega

def sameContext : Gap where
  front := []
  cut := true
  sameLimit := true
  onTrial := false

theorem read_not_cut (p : Nonterminal) {n : Nat} {context : Context}
    (hn : context.levelsEnough ≤ n) {fault : Fault} {after : Context}
    (h : p.read (Rules.levels n) context = .error fault after) : ¬fault.IsLimit := by
  intro hlimit
  have hends := (p.read_advances (Rules.levels_advance n)).ends context trivial
  rw [h] at hends
  obtain ⟨honward,haffordable⟩ := hends
  have hlevels := haffordable.limit hlimit
  have hdistance := distance_le honward
  unfold Context.levelsEnough at hn
  omega

/-- From every context, with any number of levels of nesting: what succeeds has moved on and only
added to the table, and no loop goes on after the text has ended. With four levels for each
character the recursion ends by itself, and no larger number of levels makes a difference. -/
theorem productions_move_on_and_end (p : Nonterminal) (n : Nat) (context : Context) :
    (∀ a after, p.read (Rules.levels n) context = .ok a after → MovesOn context after) ∧
    (∀ after, p.read (Rules.levels n) context ≠ .error (.broken .itemConsumes) after) ∧
    (context.levelsEnough ≤ n →
      (∀ fault after, p.read (Rules.levels n) context = .error fault after → ¬fault.IsLimit) ∧
      ∀ k, n ≤ k → p.read (Rules.levels k) context = p.read (Rules.levels n) context) := by
  have hends := (p.read_advances (Rules.levels_advance n)).ends context trivial
  refine ⟨?_,?_,?_⟩
  · intro a after h
    rw [h] at hends
    exact movesOn_of_onward hends.1 hends.2
  · intro after h
    rw [h] at hends
    exact hends.2.items rfl
  · intro hn
    refine ⟨fun fault after => read_not_cut p hn,fun k hk => ?_⟩
    exact (eq_of_alike (p.read_alike (Rules.levels_alike (g := sameContext) rfl hk)) rfl rfl
      (by simp [sameContext]) fun fault after h hcut =>
        read_not_cut p hn h ((Gap.cutLeft_iff rfl).mp hcut).2).symm

theorem productions_move_on_and_end_type :
    let context : Context := { cursor := .start ['P','i'], recursionLimit := 0 }
    (∃ a after, Nonterminal.type.read (Rules.levels 12) context = .ok a after ∧
      MovesOn context after) ∧
    context.levelsEnough ≤ 12 ∧
    ∀ k, 12 ≤ k → Nonterminal.type.read (Rules.levels k) context =
      Nonterminal.type.read (Rules.levels 12) context := by
  intro context
  have hclaim := productions_move_on_and_end .type 12 context
  have hread : (match Nonterminal.type.read (Rules.levels 12) context with
      | .ok _ _ => true
      | .error _ _ => false) = true := by decide +kernel
  refine ⟨?_,by decide,(hclaim.2.2 (by decide)).2⟩
  cases hrun : Nonterminal.type.read (Rules.levels 12) context with
  | ok a after => exact ⟨a,after,rfl,hclaim.1 a after hrun⟩
  | error fault after =>
    rw [hrun] at hread
    cases hread

end MangledNames.Grammar
