import MangledNames.Proofs.Printing.Composing
set_option autoImplicit false

/-!
What runs add to a sheet in terms of the brackets that are still to be closed, and texts
that close all that they open.
-/

namespace MangledNames.Printing

/-- Whatever a run adds to a sheet, with these brackets due before and after. -/
def Adds {α : Type} (m : Printer α) (due later : List Char) : Prop :=
  Says m fun text => nest due text.toList = some later

theorem nest_text_append {due later last : List Char} {u v : String}
    (hu : nest due u.toList = some later) (hv : nest later v.toList = some last) :
    nest due (u ++ v).toList = some last := by
  rw [String.toList_append]
  exact nest_append hu hv

section
variable {α β : Type} {m : Printer α} {n : Printer β} {q : α → Printer β} {k : Unit → Printer β}
  {due later last : List Char} {text : String}

namespace Adds

theorem pure (a : α) : Adds (Pure.pure a : Printer α) due due :=
  (Says.pure a).imp fun _ hnone => by rw [hnone]; rfl

theorem bind (h : Adds m due later) (hq : ∀ a, Adds (q a) later last) : Adds (m >>= q) due last :=
  Says.bind h hq fun _ _ => nest_text_append

theorem andThen (h : Adds m due later) (hn : Adds n later last) :
    Adds (m >>= fun _ => n) due last :=
  h.bind fun _ => hn

/-- What closes all that it opens does so anywhere. -/
theorem anywhere (h : Adds m [] []) : Adds m due due := h.imp fun _ hadded => nest_frame hadded due

theorem write (h : nest due text.toList = some later) : Adds (Printing.write text) due later :=
  (Says.write text).imp fun _ hsame => hsame ▸ h

theorem bare (h : Bare text.toList) : Adds (Printing.write text) due due := .write (nest_bare h due)

theorem opens (closers : List Char) (h : nest [] text.toList = some closers) :
    Adds (Printing.write text) due (closers ++ due) :=
  .write (nest_frame h due)

theorem closes (closers : List Char) (h : nest closers text.toList = some []) :
    Adds (Printing.write text) (closers ++ due) due :=
  .write (nest_frame h due)

theorem ite {c : Prop} [Decidable c] {m' : Printer α} (h : c → Adds m due later)
    (h' : ¬c → Adds m' due later) : Adds (if c then m else m') due later := by
  split
  · exact h ‹_›
  · exact h' ‹_›

theorem writeIf {c : Prop} [Decidable c] (h : Bare text.toList) (hk : Adds (k ()) due later) :
    Adds (if c then Printing.write text >>= k else k ()) due later :=
  .ite (fun _ => (Adds.bare h).bind fun _ => hk) fun _ => hk

theorem writeUnless {c : Prop} [Decidable c] (h : Bare text.toList) (hk : Adds (k ()) due later) :
    Adds (if c then k () else Printing.write text >>= k) due later :=
  .ite (fun _ => hk) fun _ => (Adds.bare h).bind fun _ => hk

theorem failing (error : DemangleError) : Adds (ofExcept (.error error) >>= q) due later :=
  Says.ofExcept nofun

theorem known {a : α} (h : Adds (q a) due later) : Adds (ofExcept (.ok a) >>= q) due later :=
  Says.ofExcept fun _ hsame => by cases hsame; exact h

theorem asked (hgrows : Grows m) (hasks : Asks m) (hq : ∀ a, Adds (q a) due later) :
    Adds (m >>= q) due later :=
  Says.asked hgrows (fun s a t ht => ⟨hasks s a t ht,trivial⟩) fun a (_ : True) => hq a

theorem answered {a : α} (hgrows : Grows m) (hanswers : Answers m a) (hq : Adds (q a) due later) :
    Adds (m >>= q) due later :=
  Says.asked hgrows (fun s b t ht => (hanswers s b t ht).symm) fun b hsame => by
    rw [show b = a from hsame]
    exact hq

end Adds

end

/-- Only marks count. -/
theorem nest_filter (due text : List Char) : nest due (text.filter isMark) = nest due text := by
  fun_induction nest due text with
  | case1 due => rfl
  | case2 due c text close hclose ih =>
    rw [List.filter_cons_of_pos (by simp [isMark,isBracket,hclose])]
    simp only [nest,hclose]
    exact ih
  | case3 close due text hclose hclosing ih =>
    rw [List.filter_cons_of_pos (by simp [isMark,isBracket,hclosing])]
    simp only [nest,hclose,hclosing,if_true]
    exact ih
  | case4 c text hclose hclosing close due hne =>
    rw [List.filter_cons_of_pos (by simp [isMark,isBracket,hclosing])]
    simp [nest,hclose,hclosing,hne]
  | case5 c text hclose hclosing =>
    rw [List.filter_cons_of_pos (by simp [isMark,isBracket,hclosing])]
    simp [nest,hclose,hclosing]
  | case6 due c text hclose hclosing ih =>
    by_cases hmark : isMark c = true
    · rw [List.filter_cons_of_pos hmark]
      simp only [nest,hclose]
      rw [if_neg hclosing]
      exact ih
    · rw [List.filter_cons_of_neg hmark]
      exact ih

theorem nest_symbol (operator : Operator) : nest [] operator.symbol.toList = some [] := by
  cases operator <;> exact nest_chars rfl (by decide)

theorem nest_framed {before text after : String}
    (hframe : encloses before.toList after.toList = true) (h : nest [] text.toList = some []) :
    nest [] (before ++ text ++ after).toList = some [] := by
  obtain ⟨opening,closing,hcloses,hbefore,hafter⟩ := encloses_marks hframe
  have hopened : nest [] before.toList = some [closing] := by
    rw [← nest_filter,hbefore]
    simp [nest,hcloses]
  have hclosed : nest [closing] after.toList = some [] := by
    rw [← nest_filter,hafter]
    rcases closing?_cases hcloses with ⟨_,rfl⟩ | ⟨_,rfl⟩ | ⟨_,rfl⟩ <;> decide
  simp only [String.toList_append]
  exact nest_between [closing] hopened (nest_frame h [closing]) hclosed

theorem bare_expandedText (name : StandardName) (spaced : Bool) :
    Bare (name.expandedText spaced).toList := by
  cases spaced <;> cases name <;> exact bare_chars rfl (by decide)

/-- Texts that close all that they open. -/
def balanced (spaced : Bool) : TextInvariant spaced where
  Fits text := nest [] text.toList = some []
  append := nest_text_append
  unmarked h := nest_bare h.bare []
  framed := nest_framed
  join hu hv _ _ := nest_text_append hu (nest_text_append (by decide) hv)
  arguments h := nest_text_append (nest_text_append (nest_text_append (by decide) h)
    (nest_bare (unmarked_argumentsGap _ _).bare [])) (by decide)
  Closable text := nest [] text.toList = some []
  angled hbefore h := nest_text_append (nest_text_append (by
    rw [← nest_filter,beq_iff_eq.mp hbefore]
    decide) h) (by decide)
  operatorName operator := by
    split
    · exact nest_text_append (by decide) (nest_symbol operator)
    · exact nest_text_append (by decide) (nest_symbol operator)
  symbol {operator} _ := nest_symbol operator
  access access := by cases access <;> decide
  operation operator _ _ hleft hright := by
    have hspaced : nest [] (" " ++ operator.symbol ++ " ").toList = some [] :=
      nest_text_append (nest_text_append (by decide) (nest_symbol operator)) (by decide)
    exact nest_text_append (nest_text_append (nest_framed (by decide) hleft) hspaced)
      (nest_framed (by decide) hright)
  expandedText name := nest_bare (bare_expandedText name spaced) []

end MangledNames.Printing
