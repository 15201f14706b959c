import MangledNames.Proofs.Printing.Sheet
import MangledNames.Printing.Literal
set_option autoImplicit false

/-!
Brackets in printed text: what a text opens and closes. What is only asked of a
sheet leaves its text as it is.
-/

namespace MangledNames.Printing

/-- What closes an opening bracket. -/
def closing? : Char → Option Char
  | '(' => some ')'
  | '[' => some ']'
  | '\x7b' => some '\x7d'
  | _ => none

def isClosing (c : Char) : Bool := c == ')' || c == ']' || c == '\x7d'

def isBracket (c : Char) : Bool := (closing? c).isSome || isClosing c

/-- Reads a text with the brackets that are still to come, the innermost first. A closing
bracket is the one that is due. -/
def nest : List Char → List Char → Option (List Char)
  | due, [] => some due
  | due, c :: text =>
    match closing? c with
    | some close => nest (close :: due) text
    | none =>
      if isClosing c then
        match due with
        | close :: due => if close = c then nest due text else none
        | [] => none
      else nest due text

/-- Every bracket is closed, the innermost one first, and none that was not opened. -/
def Balanced (text : List Char) : Prop := nest [] text = some []

instance (text : List Char) : Decidable (Balanced text) :=
  inferInstanceAs (Decidable (nest [] text = some []))

def Bare (text : List Char) : Prop := ∀ c ∈ text, isBracket c = false

instance (text : List Char) : Decidable (Bare text) :=
  decidable_of_iff (text.any isBracket = false) (by simp [Bare])

theorem nest_append {due later last text text' : List Char} (h : nest due text = some later)
    (h' : nest later text' = some last) : nest due (text ++ text') = some last := by
  fun_induction nest due text with
  | case1 due =>
    cases h
    exact h'
  | case2 due c text close hclose ih =>
    simp only [List.cons_append,nest,hclose]
    exact ih h
  | case3 close due text hclose hclosing ih =>
    simp only [List.cons_append,nest,hclose,hclosing,if_true]
    exact ih h
  | case4 => cases h
  | case5 => cases h
  | case6 due c text hclose hclosing ih =>
    simp only [List.cons_append,nest,hclose]
    rw [if_neg hclosing]
    exact ih h

/-- Brackets that come later do not matter. -/
theorem nest_frame {due later text : List Char} (h : nest due text = some later)
    (more : List Char) :
    nest (due ++ more) text = some (later ++ more) := by
  fun_induction nest due text with
  | case1 due =>
    cases h
    rfl
  | case2 due c text close hclose ih =>
    simp only [nest,hclose]
    exact ih h
  | case3 close due text hclose hclosing ih =>
    simp only [List.cons_append,nest,hclose,hclosing,if_true]
    exact ih h
  | case4 => cases h
  | case5 => cases h
  | case6 due c text hclose hclosing ih =>
    simp only [nest,hclose]
    rw [if_neg hclosing]
    exact ih h

theorem nest_between {due opening inner closing : List Char} (closers : List Char)
    (hopening : nest [] opening = some closers)
    (hinner : nest (closers ++ due) inner = some (closers ++ due))
    (hclosing : nest closers closing = some []) :
      nest due (opening ++ inner ++ closing) = some due :=
  nest_append (nest_append (nest_frame hopening due) hinner) (nest_frame hclosing due)

theorem nest_bare {text : List Char} (h : Bare text) (due : List Char) :
    nest due text = some due := by
  induction text with
  | nil => rfl
  | cons c text ih =>
    have hc : isBracket c = false := h c (by simp)
    simp only [isBracket,Bool.or_eq_false_iff,Option.isSome_eq_false_iff,
      Option.isNone_iff_eq_none] at hc
    simp only [nest,hc.1]
    rw [if_neg (by simp [hc.2])]
    exact ih fun x hx => h x (by simp [hx])

/-- The characters of a literal are at hand: they need not be found in its bytes. -/
theorem nest_chars {due later chars : List Char} {text : String} (h : text = String.ofList chars)
    (hnest : nest due chars = some later) : nest due text.toList = some later := by
  rw [h,String.toList_ofList]
  exact hnest

theorem bare_chars {chars : List Char} {text : String} (h : text = String.ofList chars)
    (hbare : Bare chars) :
    Bare text.toList := by
  rw [h,String.toList_ofList]
  exact hbare

/-- A run that leaves the text as it is, and comes to this or to nothing. -/
def Answers {α : Type} (m : Printer α) (a : α) : Prop :=
  ∀ s b t, m s = .ok b t → b = a ∧ t.output = s.output

/-- A run that leaves the text as it is. -/
def Asks {α : Type} (m : Printer α) : Prop := ∀ s b t, m s = .ok b t → t.output = s.output

section
variable {α β : Type} {m : Printer α} {q : α → Printer β}

theorem Answers.then {a : α} {b : β} (h : Answers m a) (hq : Answers (q a) b) :
    Answers (m >>= q) b := by
  intro s b' u hrun
  obtain ⟨a',t,hm,hrest⟩ := bind_ok hrun
  obtain ⟨rfl,houtput⟩ := h s a' t hm
  obtain ⟨rfl,houtput'⟩ := hq t b' u hrest
  exact ⟨rfl,houtput'.trans houtput⟩

theorem Answers.pure (a : α) : Answers (Pure.pure a : Printer α) a := by
  rintro s _ t ⟨⟩
  exact ⟨rfl,rfl⟩

theorem step_answers (config : Config) : Answers (step config) ⟨⟩ :=
  fun _ _ _ hrun => ⟨rfl,step_ok hrun⟩

theorem Asks.then (h : Asks m) (hq : ∀ a, Asks (q a)) : Asks (m >>= q) := by
  intro s b u hrun
  obtain ⟨a,t,hm,hrest⟩ := bind_ok hrun
  exact (hq a t b u hrest).trans (h s a t hm)

theorem Asks.pure (a : α) : Asks (Pure.pure a : Printer α) := by
  rintro s _ t ⟨⟩
  rfl

theorem asks_ofExcept (found : Except DemangleError α) : Asks (ofExcept found) := by
  cases found with
  | ok a => exact .pure a
  | error error => nofun

theorem step_asks (config : Config) : Asks (step config) := fun _ _ _ hrun => step_ok hrun

theorem last_asks : Asks Printing.last := by
  rintro s _ t ⟨⟩
  rfl

end

end MangledNames.Printing
