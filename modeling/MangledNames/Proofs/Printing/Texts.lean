import MangledNames.Proofs.Printing.Brackets
import MangledNames.Proofs.Printing.Omission
import MangledNames.Printing.Render
set_option autoImplicit false

/-!
The texts that runs add to a sheet. Whatever is printed keeps what was there before.
-/

namespace MangledNames.Printing

open Likeness

/-- Every run on a sound sheet only adds to it. -/
def Grows {α : Type} (m : Printer α) : Prop := ∀ s, s.Sound → ∀ a t, m s = .ok a t → s.Leads t

/-- Every run on a sound sheet adds such a text to it. -/
def Says {α : Type} (m : Printer α) (p : String → Prop) : Prop :=
  ∀ s, s.Sound → ∀ a t, m s = .ok a t →
    s.Leads t ∧ ∃ added, t.output.text = s.output.text ++ added ∧ p added

/-- Behind the text `before` a run writes `added`. -/
def Continues (m : Printer Unit) (before added : String) : Prop :=
  ∃ s t : Sheet, s.Sound ∧ m s = .ok () t ∧ s.output.text = before ∧ t.output.text = before ++ added

theorem Sheet.Leads.text {s t : Sheet} (h : s.Leads t) :
    ∃ added, t.output.text = s.output.text ++ added := by
  obtain ⟨pieces,hpieces,_⟩ := h.pieces
  exact ⟨String.join pieces,by simp [Output.text,hpieces]⟩

section
variable {α β : Type} {m : Printer α} {n : Printer β} {q : α → Printer β} {p p' r : String → Prop}

theorem Sheet.Spares.refl {s : Sheet} (hs : s.Sound) : s.Spares s :=
  ⟨hs,hs,Nat.le_refl _,Nat.le_refl _,Nat.le_refl _,.inl rfl⟩

theorem Omits.refl (config : Config) : Omits config config := ⟨id,id,rfl,rfl,Nat.le_refl _⟩

theorem grows_of_sparing {v : α → β → Prop} (h : sparing.Holds v m n) : Grows m := by
  intro s hs a t ht
  obtain ⟨_,_,_,_,hst⟩ := h.results s s (.refl hs) a t ht
  exact hst.leads

theorem Grows.bind (h : Grows m) (hq : ∀ a, Grows (q a)) : Grows (m >>= q) := by
  intro s hs b u hu
  obtain ⟨a,t,ht,hu⟩ := bind_ok hu
  have hst := h s hs a t ht
  exact hst.trans (hq a t (hst.sound hs) b u hu)

namespace Says

theorem imp (h : Says m p) (hp : ∀ text, p text → p' text) : Says m p' := by
  intro s hs a t ht
  obtain ⟨hleads,added,hadded,hp'⟩ := h s hs a t ht
  exact ⟨hleads,added,hadded,hp added hp'⟩

theorem grows (h : Says m p) : Grows m := fun s hs a t ht => (h s hs a t ht).1

theorem of_grows (h : Grows m) : Says m fun _ => True := by
  intro s hs a t ht
  obtain ⟨added,hadded⟩ := (h s hs a t ht).text
  exact ⟨h s hs a t ht,added,hadded,trivial⟩

theorem pure (a : α) : Says (Pure.pure a : Printer α) (· = "") := by
  rintro s hs _ t ⟨⟩
  exact ⟨.refl s,"",by simp,rfl⟩

theorem bind (h : Says m p) (hq : ∀ a, Says (q a) p')
    (hr : ∀ text text', p text → p' text' → r (text ++ text')) : Says (m >>= q) r := by
  intro s hs b u hu
  obtain ⟨a,t,ht,hu⟩ := bind_ok hu
  obtain ⟨hst,text,htext,hp⟩ := h s hs a t ht
  obtain ⟨htu,text',htext',hp'⟩ := hq a t (hst.sound hs) b u hu
  exact ⟨hst.trans htu,text ++ text',by rw [htext',htext,String.append_assoc],hr _ _ hp hp'⟩

theorem write (text : String) : Says (Printing.write text) (· = text) := by
  intro s hs _ t ht
  refine ⟨grows_of_sparing (write_sparing text) s hs () t ht,text,?_,rfl⟩
  cases hempty : text.isEmpty with
  | true =>
    rw [write_apply,hempty] at ht
    cases ht
    simp [String.isEmpty_iff.mp hempty]
  | false =>
    obtain ⟨_,rfl⟩ := put_of_write hempty ht
    simp [Sheet.put,Output.text]

theorem before {k : Unit → Printer β} (text : String) {rest : String} (h : Says (k ()) (· = rest)) :
    Says (Printing.write text >>= k) (· = text ++ rest) :=
  (write text).bind (fun _ => h) fun _ _ htext hrest => by rw [htext,hrest]

theorem writeIf (c : Bool) (text : String) :
    Says (if c = true then Printing.write text else Pure.pure ())
    (· = if c = true then text else "") := by
  cases c with
  | true => exact .write text
  | false => exact .pure ()

theorem writeIf_then {c : Bool} {k : Unit → Printer β} (text : String) {rest : String}
    (h : Says (k ()) (· = rest)) :
    Says (if c = true then Printing.write text >>= k else k ())
      (· = (if c = true then text else "") ++ rest) := by
  cases c with
  | true => exact h.before text
  | false => exact h.imp fun _ htext => by simp [htext]

end Says

end

def cvText (cv : CvQualifiers) : String :=
  (if cv.const = true then " const" else "") ++ ((if cv.volatile = true then " volatile" else "") ++
    if cv.restrict = true then " restrict" else "")

theorem cvQualifiers_puts (cv : CvQualifiers) : Says (cvQualifiers cv) (· = cvText cv) := by
  unfold cvQualifiers
  exact .writeIf_then _ (.writeIf_then _ (.writeIf _ _))

section
variable {config : Config}

theorem step_puts : Says (step config) (· = "") := by
  intro s hs a t ht
  refine ⟨grows_of_sparing (step_sparing (Nat.le_refl config.outputSizeLimit)) s hs a
    t ht,"",?_,rfl⟩
  rw [step_ok ht]
  simp

theorem Halves.left_grows (n : Nat) (place : Place) (node : Node) :
    Grows ((Halves.levels config n).left place node) :=
  grows_of_sparing (Halves.levels_sparing (.refl config) n place node).left

theorem Halves.right_grows (n : Nat) (place : Place) (node : Node) :
    Grows ((Halves.levels config n).right place node) :=
  grows_of_sparing (Halves.levels_sparing (.refl config) n place node).right

theorem Halves.print_grows (n : Nat) (place : Place) (node : Node) :
    Grows ((Halves.levels config n).print place node) :=
  grows_of_sparing (Halves.levels_sparing (.refl config) n place node).print

theorem Halves.printList_grows (n : Nat) (place : Place) (nodes : List Node) :
    Grows ((Halves.levels config n).printList place nodes) :=
  grows_of_sparing (printList_alike (parallel_sparing (.refl config))
    (allAlike_list (Halves.levels_sparing (.refl config) n) place nodes))

theorem hasRightSide_grows (place : Place) (node : Node) : Grows (hasRightSide config place node) :=
  grows_of_sparing (hasRightSide_alike (parallel_sparing (.refl config))
    (fun _ => throws_sparing _ _) place node)

theorem collapse_grows (place : Place) (referent : Node) (kind : ReferenceKind) :
    Grows (collapse config place referent kind) :=
  grows_of_sparing
    (collapse_alike (parallel_sparing (.refl config)) (fun _ => throws_sparing _ _) _ _ _)

end

section
variable {m : Printer Unit} {s t : Sheet}

/-- What a run adds is what it writes behind the text at hand. -/
theorem Grows.continues (h : Grows m) (hs : s.Sound) (hrun : m s = .ok () t) :
    t.Sound ∧ ∃ added, t.output.text = s.output.text ++ added ∧
    Continues m s.output.text added := by
  have hleads := h s hs () t hrun
  obtain ⟨added,hadded⟩ := hleads.text
  exact ⟨hleads.sound hs,added,hadded,s,t,hs,hrun,rfl,hadded⟩

theorem added_unique {before added added' : String} (h : before ++ added = before ++ added') :
    added = added' := by
  have hchars := congrArg String.toList h
  simp only [String.toList_append,List.append_cancel_left_eq] at hchars
  exact String.toList_injective hchars

theorem Says.continues {p : String → Prop} {before text : String} (h : Says m p)
    (htext : Continues m before text) : p text := by
  obtain ⟨s,t,hs,hrun,rfl,hadded⟩ := htext
  obtain ⟨_,added,hadded',hadds⟩ := h s hs () t hrun
  rwa [added_unique (hadded'.symm.trans hadded)] at hadds

theorem Asks.added {added : String} (h : Asks m) (hrun : m s = .ok () t)
    (hadded : t.output.text = s.output.text ++ added) : added = "" := by
  rw [h s () t hrun] at hadded
  exact (added_unique (by simpa using hadded)).symm

theorem Continues.empty {before added : String} (h : Continues m before added) (hm : Asks m) :
    added = "" := by
  obtain ⟨s,t,_,hrun,rfl,hadded⟩ := h
  exact hm.added hrun hadded

theorem Says.known {text : String} (h : Says m (· = text)) (hs : s.Sound) (hrun : m s = .ok () t) :
    t.Sound ∧ t.output.text = s.output.text ++ text := by
  obtain ⟨hleads,_,hadded,rfl⟩ := h s hs () t hrun
  exact ⟨hleads.sound hs,hadded⟩

end

theorem Sheet.Sound.of_output {s t : Sheet} (hs : s.Sound)
    (houtput : t.output = s.output) : t.Sound :=
  ⟨by rw [houtput]; exact hs.pieces,by rw [houtput]; exact hs.size,by
    rw [houtput]; exact hs.size_le⟩

theorem Sheet.Sound.blank (config : Config) : (Sheet.blank config).Sound :=
  ⟨by simp [Sheet.blank],rfl,Nat.zero_le _⟩

/-- A tree is printed on a blank sheet. -/
theorem Says.render {config : Config} {node : Node} {p : String → Prop} {text : String}
    (h : Says ((Halves.levels config (levelsOf config)).print {} node) p)
    (htext : node.render config = .ok text) : p text := by
  unfold Node.render at htext
  cases hresult : (Halves.levels config (levelsOf config)).print {} node (.blank config) with
  | ok _ sheet =>
    rw [hresult] at htext
    cases htext
    obtain ⟨_,added,hadded,hadds⟩ := h _ (.blank config) _ _ hresult
    have hblank : (Sheet.blank config).output.text = "" := rfl
    rwa [hadded,hblank,String.empty_append]
  | error fault sheet =>
    rw [hresult] at htext
    cases htext

/-- The size of a sheet is the length of its text. -/
theorem Sheet.Sound.length_text {sheet : Sheet} (h : sheet.Sound) :
    sheet.output.text.length = sheet.output.size := by
  have hlength :
      ∀ pieces : List String, (String.join pieces).length = Output.totalLength pieces := by
    intro pieces
    induction pieces with
    | nil => rfl
    | cons piece pieces ih => simp [Output.totalLength,← ih]
  rw [h.size]
  exact hlength _

/-- What a run comes to on an empty sheet. -/
def textOf (m : Printer Unit) : Option String :=
  match m (.blank .standard) with
  | .ok _ t => some t.output.text
  | .error _ _ => none

theorem textOf_eq {m : Printer Unit} {text : String} (h : textOf m = some text) :
    ∃ t, m (.blank .standard) = .ok () t ∧ t.output.text = text := by
  unfold textOf at h
  split at h
  · rename_i t hrun
    exact ⟨t,hrun,Option.some.inj h⟩
  · cases h

end MangledNames.Printing
