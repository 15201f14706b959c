import MangledNames.Proofs.Printing.Declarators
import MangledNames.Proofs.Printing.Texts
set_option autoImplicit false

/-!
The texts of lists and of expanded packs: what their items write, one behind the other.
-/

namespace MangledNames.Printing

def separatorText (printed : Bool) : String := if printed = true then ", " else ""

/-- Texts with commas between them, and before the first one if something is printed before it. -/
def furtherText : Bool → List String → String
  | _, [] => ""
  | printed, text :: texts => separatorText printed ++ text ++ furtherText true texts

/-- What items write, one text for each, where each is printed behind what those before it have
left. An item without text takes its comma back, unless such items keep theirs. -/
inductive ItemTexts {α : Type} (keeps : Bool) (print : α → Printer Unit) :
    Bool → String → List α → List String → Prop
  | nil (printed : Bool) (before : String) : ItemTexts keeps print printed before [] []
  | withdrawn {printed : Bool} {before : String} {item : α} {items : List α} {texts : List String} :
    keeps = false → Continues (print item) (before ++ separatorText printed) "" →
    ItemTexts keeps print printed before items texts →
    ItemTexts keeps print printed before (item :: items) ("" :: texts)
  | written {printed : Bool} {before text : String} {item : α} {items : List α}
    {texts : List String} :
    keeps = true ∨ text ≠ "" → Continues (print item) (before ++ separatorText printed) text →
    ItemTexts keeps print true (before ++ separatorText printed ++ text) items texts →
    ItemTexts keeps print printed before (item :: items) (text :: texts)

theorem furtherText_eq (texts : List String) :
    furtherText false texts = ", ".intercalate texts := by
  have further :
      ∀ text texts, text ++ furtherText true texts = ", ".intercalate (text :: texts) := by
    intro text texts
    induction texts generalizing text with
    | nil => simp [furtherText]
    | cons next texts ih =>
      rw [furtherText,String.intercalate_cons_cons,← ih]
      simp [separatorText,String.append_assoc]
  cases texts with
  | nil => simp [furtherText]
  | cons text texts =>
    rw [furtherText,← further]
    simp [separatorText]

/-- What holds of nothing and is kept by a comma between texts that show something, holds of all
such texts with commas between them. -/
theorem intercalate_induction {p : String → Prop} (hempty : p "")
    (hjoin : ∀ {u v}, p u → p v → u ≠ "" → v ≠ "" → p (u ++ (", " ++ v))) {texts : List String}
    (h : ∀ text ∈ texts, p text) (hshown : ∀ text ∈ texts, text ≠ "") :
      p (", ".intercalate texts) := by
  have further : ∀ text texts, (∀ text' ∈ text :: texts, p text') →
    (∀ text' ∈ text :: texts, text' ≠ "") →
      p (", ".intercalate (text :: texts)) ∧ ", ".intercalate (text :: texts) ≠ "" := by
    intro text texts h hshown
    induction texts generalizing text with
    | nil => exact ⟨by simpa using h,by simpa using hshown⟩
    | cons next texts ih =>
      rw [List.forall_mem_cons] at h hshown
      obtain ⟨hrest,hne⟩ := ih next h.2 hshown.2
      rw [String.intercalate_cons_cons,String.append_assoc]
      exact ⟨hjoin h.1 hrest hshown.1 hne,by simp [hshown.1]⟩
  cases texts with
  | nil => simpa using hempty
  | cons text texts => exact (further text texts h hshown).1

theorem ItemTexts.length {α : Type} {keeps printed : Bool} {print : α → Printer Unit}
    {before : String} {items : List α} {texts : List String}
    (h : ItemTexts keeps print printed before items texts) :
    texts.length = items.length := by
  induction h with
  | nil => rfl
  | withdrawn _ _ _ ih => simp [ih]
  | written _ _ _ ih => simp [ih]

theorem ItemTexts.all {α : Type} {keeps printed : Bool} {print : α → Printer Unit} {before : String}
    {items : List α} {texts : List String} (h : ItemTexts keeps print printed before items texts)
    {p : String → Prop}
    (hprint : ∀ item ∈ items, ∀ before text, Continues (print item) before text → p text) :
    ∀ text ∈ texts, p text := by
  induction h with
  | nil => exact List.forall_mem_nil _
  | withdrawn _ hitem _ ih =>
    rw [List.forall_mem_cons] at hprint ⊢
    exact ⟨hprint.1 _ _ hitem,ih hprint.2⟩
  | written _ hitem _ ih =>
    rw [List.forall_mem_cons] at hprint ⊢
    exact ⟨hprint.1 _ _ hitem,ih hprint.2⟩

/-- The mark is where it was if and only if nothing was added. -/
theorem Sheet.Leads.mark_eq_iff {s t : Sheet} (hs : s.Sound) (h : s.Leads t) {added : String}
    (hadded : t.output.text = s.output.text ++ added) :
    t.output.mark = s.output.mark ↔ added = "" := by
  constructor
  · intro hmark
    obtain ⟨pieces,hpieces,_⟩ := h.pieces
    have hcount := congrArg List.length hpieces
    simp only [Output.mark] at hmark
    simp only [Array.length_toList,List.length_append,hmark] at hcount
    have hnone : pieces = [] := List.eq_nil_of_length_eq_zero (by omega)
    have hsame : t.output.text = s.output.text := by simp [Output.text,hpieces,hnone]
    rw [hsame] at hadded
    exact (added_unique (by simpa using hadded)).symm
  · rintro rfl
    have hlength := congrArg String.length hadded
    rw [String.append_empty,(h.sound hs).length_text,hs.length_text] at hlength
    by_contra hmark
    have hlonger := h.lt_of_mark hs hmark
    omega

section
variable {α : Type} {print : α → Printer Unit}

theorem separator_puts (printed : Bool) : Says (separator printed) (· = separatorText printed) :=
  .writeIf printed ", "

theorem listFrom_texts {items : List α} (hgrows : ∀ item ∈ items, Grows (print item))
    {printed : Bool} {s t : Sheet} (hs : s.Sound)
    (hrun : listFrom print printed items s = .ok () t) :
    s.Leads t ∧ ∃ texts, ItemTexts false print printed s.output.text items texts ∧
      t.output.text = s.output.text ++ furtherText printed (texts.filter (· ≠ "")) := by
  induction items generalizing printed s with
  | nil =>
    cases hrun
    exact ⟨.refl _,[],.nil _ _,by simp [furtherText]⟩
  | cons item items ih =>
    rw [List.forall_mem_cons] at hgrows
    obtain ⟨s₁,s₂,hseparator,hprint⟩ := listFrom_cons_ok hrun
    obtain ⟨hs₁,htext₁⟩ := (separator_puts printed).known hs hseparator
    have hleads₁ : s.Leads s₁ := (separator_puts printed).grows s hs () s₁ hseparator
    have hleads₂ : s₁.Leads s₂ := hgrows.1 s₁ hs₁ () s₂ hprint
    obtain ⟨hs₂,text,htext₂,hcontinues⟩ := hgrows.1.continues hs₁ hprint
    have hmark := hleads₂.mark_eq_iff hs₁ htext₂
    rw [htext₁] at hcontinues htext₂
    rw [listFrom_cons_apply hs hseparator hprint (hleads₁.trans hleads₂)] at hrun
    -- The mark tells whether there is a text: an empty one is no piece, and its separator
    -- goes with it.
    by_cases hempty : text = ""
    · subst hempty
      rw [if_pos (hmark.mpr rfl)] at hrun
      have hback : s.Leads ⟨s.output,s₂.visits⟩ :=
        .visited (Nat.le_trans hleads₁.visits hleads₂.visits)
      obtain ⟨hleads,texts,hitems,htext⟩ := ih hgrows.2 (hback.sound hs) hrun
      exact ⟨hback.trans hleads,"" :: texts,.withdrawn rfl hcontinues hitems,by simpa using htext⟩
    · rw [if_neg (fun hsame => hempty (hmark.mp hsame))] at hrun
      obtain ⟨hleads,texts,hitems,htext⟩ := ih hgrows.2 hs₂ hrun
      rw [htext₂] at hitems htext
      refine ⟨(hleads₁.trans hleads₂).trans hleads,text :: texts,.written
        (.inr hempty) hcontinues hitems,?_⟩
      rw [htext,List.filter_cons_of_pos (by simpa using hempty),furtherText]
      simp [String.append_assoc]

end

section
variable {config : Config} {h : Halves} {place : Place} {pattern : Node} {s t : Sheet}

theorem packSize_ok {size : Option Nat} (hrun : packSize config place pattern s = .ok size t) :
    size = packCount place pattern ∧ t.output = s.output := by
  have hsame : Sheet.Same true s s := ⟨rfl,rfl,nofun,nofun⟩
  have hmatch := (packSize_lockstep config place pattern).results s s hsame
  rw [hrun] at hmatch
  exact ⟨hmatch.1,packSize_asks config place pattern s size t hrun⟩

theorem packElements_texts {count index : Nat}
    (hgrows : ∀ i ∈ List.range' index count, Grows
      (h.print { place with packIndex := some i } pattern))
    (hs : s.Sound) (hrun : packElements h place pattern count index s = .ok () t) :
    s.Leads t ∧ ∃ texts, ItemTexts true
        (fun i => h.print { place with packIndex := some i } pattern)
        (decide (index ≠ 0)) s.output.text (List.range' index count) texts ∧
      t.output.text = s.output.text ++ furtherText (decide (index ≠ 0)) texts := by
  induction count generalizing index s with
  | zero =>
    cases hrun
    exact ⟨.refl _,[],.nil _ _,by simp [furtherText]⟩
  | succ count ih =>
    rw [List.range'_succ,List.forall_mem_cons] at hgrows
    have hparts : packElements h place pattern (count + 1) index = (do
        separator (decide (index ≠ 0))
        h.print { place with packIndex := some index } pattern
        packElements h place pattern count (index + 1)) := by
      rw [packElements]
      unfold separator
      by_cases hindex : index = 0 <;> simp [hindex]
    rw [hparts] at hrun
    obtain ⟨_,s₁,hseparator,hrun⟩ := bind_ok hrun
    obtain ⟨_,s₂,hprint,hrun⟩ := bind_ok hrun
    obtain ⟨hs₁,htext₁⟩ := (separator_puts _).known hs hseparator
    obtain ⟨hs₂,text,htext₂,hcontinues⟩ := hgrows.1.continues hs₁ hprint
    obtain ⟨hleads,texts,hitems,htext⟩ := ih hgrows.2 hs₂ hrun
    have hleads₁ : s.Leads s₁ := (separator_puts _).grows s hs () s₁ hseparator
    have hleads₂ : s₁.Leads s₂ := hgrows.1 s₁ hs₁ () s₂ hprint
    rw [htext₁] at hcontinues htext₂
    rw [htext₂] at hitems htext
    have hprinted : decide (index + 1 ≠ 0) = true := by simp
    rw [hprinted] at hitems htext
    refine ⟨(hleads₁.trans hleads₂).trans hleads,text :: texts,?_,?_⟩
    · rw [List.range'_succ]
      exact .written (.inl rfl) hcontinues hitems
    · rw [htext,furtherText]
      simp [String.append_assoc]

end

end MangledNames.Printing
