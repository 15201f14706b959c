import MangledNames.Proofs.Printing.TokenLists
import MangledNames.Proofs.Printing.Sheet
set_option autoImplicit false

/-!
What a run writes, in terms of the tokens that it adds to the text before it.
-/

namespace MangledNames.Printing

/-- A run that writes such a text, unless a limit cuts it off. -/
def Writes {α : Type} (m : Printer α) (p : α → List Char → Prop) : Prop :=
  ∀ s, Ends
    (fun a t => ∃ added : List String, t.output.chunks.toList = s.output.chunks.toList ++ added ∧
      p a (String.join added).toList)
    (fun fault _ => fault.IsLimit) (m s)

/-- A text with these tokens. -/
def Spells (ts : List Token) : Unit → List Char → Prop := fun _ text => tokens text = ts

/-- A text that adds these tokens to those of any text before it. -/
def Adjoins (ts : List Token) : Unit → List Char → Prop :=
  fun _ text => Breaks text ∧ tokens text = ts

namespace Writes

section
variable {α β : Type} {m : Printer α} {k : α → Printer β} {p q : α → List Char → Prop}
  {r : β → List Char → Prop}

theorem imp (h : Writes m p) (hpq : ∀ a text, p a text → q a text) : Writes m q := fun s =>
  (h s).imp (fun a _ ⟨added,hadded,ha⟩ => ⟨added,hadded,hpq a _ ha⟩) fun _ _ hf => hf

theorem pure {a : α} (h : p a []) : Writes (Pure.pure a) p := fun _ => ⟨[],by simp,h⟩

theorem bind (h : Writes m p)
    (hk : ∀ a text, p a text → Writes (k a) fun b rest => r b (text ++ rest)) :
    Writes (m >>= k) r := by
  refine fun s => Ends.bind (h s) fun a t ⟨added,hadded,ha⟩ => ?_
  refine (hk a _ ha t).imp (fun b u ⟨added',hadded',hb⟩ => ?_) fun _ _ hf => hf
  exact ⟨added ++ added',by rw [hadded',hadded,List.append_assoc],by simpa using hb⟩

theorem write (text : String) :
    Writes (Printing.write text) fun _ added => added = text.toList := by
  intro s
  rw [write_apply]
  split
  · rename_i hempty
    have hnil : text = "" := by simpa using hempty
    exact ⟨[],by simp,by simp [hnil]⟩
  · split
    · exact ⟨_,rfl,rfl⟩
    · exact ⟨[text],by simp,by simp⟩

theorem step (config : Config) : Writes (Printing.step config) fun _ text => text = [] := by
  intro s
  rw [step_apply]
  split
  · exact ⟨_,rfl,rfl⟩
  · exact ⟨[],by simp,rfl⟩

theorem last : Writes Printing.last fun _ text => text = [] := fun _ => ⟨[],by simp,rfl⟩

theorem after (h : Writes m fun _ text => text = []) (hk : ∀ a, Writes (k a) r) :
    Writes (m >>= k) r :=
  h.bind fun a _ htext => htext ▸ hk a

theorem stepped {config : Config} {m : Printer α} (h : Writes m p) :
    Writes (do
      Printing.step config
      m) p :=
  (step config).after fun _ => h

end

section
variable {m n : Printer Unit} {a b : List Token} {text : String}

theorem adjoined (h : Writes m (Spells a)) (hn : Writes n (Adjoins b)) :
    Writes (m >>= fun _ => n) (Spells (a ++ b)) := by
  refine h.bind fun _ front hfront => hn.imp fun _ back hback => ?_
  rw [Spells,tokens_append hback.1,hfront,hback.2]

theorem and (h : Writes m (Adjoins a)) (hn : Writes n (Adjoins b)) :
    Writes (m >>= fun _ => n) (Adjoins (a ++ b)) := by
  refine h.bind fun _ front hfront => hn.imp fun _ back hback => ?_
  exact ⟨breaks_append hfront.1 hback.1,by rw [tokens_append hback.1,hfront.2,hback.2]⟩

theorem literal (h : Breaks text.toList ∧ tokens text.toList = a) :
    Writes (Printing.write text) (Adjoins a) :=
  (Writes.write text).imp fun _ _ htext => htext ▸ h

theorem opening (h : text.toList ≠ [] ∧ text.toList.any isWordChar = false ∧ tokens text.toList = a)
    (hn : Writes n (Spells b)) :
    Writes (Printing.write text >>= fun _ => n) (Adjoins (a ++ b)) := by
  refine (Writes.write text).bind fun _ front hfront => hn.imp fun _ rest hrest => ?_
  subst hfront
  refine ⟨?_,by rw [tokens_marks_append h.2.1,h.2.2,hrest]⟩
  cases hchars : text.toList with
  | nil => exact absurd hchars h.1
  | cons c marks =>
    have hmarks := h.2.1
    rw [hchars,List.any_cons,Bool.or_eq_false_iff] at hmarks
    exact hmarks.1

theorem writeIf {c : Bool} {k : Unit → Printer Unit}
    (h : Breaks text.toList ∧ tokens text.toList = a) (hk : Writes (k ()) (Adjoins b)) :
    Writes (if c = true then Printing.write text >>= k else k ())
      (Adjoins ((if c = true then a else []) ++ b)) := by
  cases c with
  | true => exact (literal h).and hk
  | false => exact hk

/-- A text is seen by its marks unless it is empty. -/
theorem unlessEmpty {p : Unit → List Char → Prop} {q : Unit → List Char → Prop}
    {k k' : Printer Unit} (h : Writes m p) (hne : ∀ text, p () text → text ≠ [])
    (hk : Writes (m >>= fun _ => k) q) :
    Writes (do
      let content ← mark
      m
      if (← mark) = content then k' else k) q := by
  intro s
  have hrun := hk s
  have hends := h s
  rw [mark_bind]
  rw [bind_apply] at hrun ⊢
  cases hm : m s with
  | error fault t =>
    rw [hm] at hrun
    exact hrun
  | ok _ t =>
    rw [hm] at hrun hends
    obtain ⟨added,hadded,htext⟩ := hends
    have hmark : t.output.mark ≠ s.output.mark := by
      intro heq
      have hlength := congrArg List.length hadded
      simp only [Output.mark,← Array.length_toList] at heq
      rw [List.length_append,heq] at hlength
      have hnil : added = [] := List.length_eq_zero_iff.mp (by omega)
      exact hne _ htext (by simp [hnil])
    change Ends _ _ ((if t.output.mark = s.output.mark then k' else k : Printer Unit) t)
    rw [if_neg hmark]
    exact hrun

end

section
variable {α : Type} {print : α → Printer Unit} {spell : α → List Token} {items : List α}

theorem listFrom (h : ∀ item ∈ items, Writes (print item) (Spells (spell item)) ∧ spell item ≠ []) :
    Writes (Printing.listFrom print true items) (Adjoins (furtherItems (items.map spell))) := by
  induction items with
  | nil => exact .pure ⟨rfl,rfl⟩
  | cons item items ih =>
    rw [List.forall_mem_cons] at h
    obtain ⟨⟨hitem,hne⟩,hitems⟩ := h
    intro s
    unfold Printing.listFrom
    rw [mark_bind]
    refine (opening (a := [.mark ',']) (by decide) ?_ : Writes _ _) s
    refine hitem.unlessEmpty (fun text htext hnil => hne ?_) (hitem.adjoined (ih hitems))
    subst hnil
    exact htext.symm

theorem list (h : ∀ item ∈ items, Writes (print item) (Spells (spell item)) ∧ spell item ≠ []) :
    Writes (Printing.list print items) (Spells (listed (items.map spell))) := by
  cases items with
  | nil => exact .pure rfl
  | cons item items =>
    rw [List.forall_mem_cons] at h
    obtain ⟨⟨hitem,hne⟩,hitems⟩ := h
    intro s
    unfold Printing.list Printing.listFrom
    rw [mark_bind]
    refine (hitem.unlessEmpty (fun text htext hnil => hne ?_) (hitem.adjoined (.listFrom hitems)) :
      Writes _ _) s
    subst hnil
    exact htext.symm

end

end Writes

end MangledNames.Printing
