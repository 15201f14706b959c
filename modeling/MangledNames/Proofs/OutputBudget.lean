import MangledNames.Proofs.Printing.Marks
import MangledNames.Proofs.Printing.ParallelHalves
set_option autoImplicit false

/-!
The budget of an output: pieces are withdrawn for as much as they were written for, so that no text
gets longer than the limit, and no more steps are counted than characters may be written.
-/

namespace MangledNames.Printing

open Output (Marked)
open Likeness

/-- From the first sheet the output of the second is reached by operations that keep the marks
taken before, with no more than `limit` steps counted if there were none too many. -/
structure Sheet.Within (limit : Nat) (s t : Sheet) : Prop where
  visits : s.visits ≤ limit → t.visits ≤ limit
  run : ∀ taken, Marked.Sound ⟨s.output,taken⟩ →
    ∃ taken', Marked.Run ⟨s.output,taken⟩ ⟨t.output,taken'⟩ ∧ taken ⊆ taken'

namespace Sheet.Within

variable {limit : Nat} {s t u : Sheet}

theorem refl (limit : Nat) (s : Sheet) : s.Within limit s :=
  ⟨id,fun taken _ => ⟨taken,.refl,fun _ h => h⟩⟩

theorem trans (hst : s.Within limit t) (htu : t.Within limit u) : s.Within limit u := by
  refine ⟨htu.visits ∘ hst.visits,fun taken hsound => ?_⟩
  obtain ⟨taken',hrun,hkept⟩ := hst.run taken hsound
  obtain ⟨taken'',hrun',hkept'⟩ := htu.run taken' (hsound.run hrun)
  exact ⟨taken'',hrun.trans hrun',fun _ h => hkept' (hkept h)⟩

theorem write {text : String} (h : Printing.write text s = .ok () t) : s.Within limit t := by
  change (liftM (Output.write text) : Printer Unit) s = _ at h
  rw [writing_apply] at h
  cases hwrite : Output.write text s.output with
  | ok _ o =>
    rw [hwrite] at h
    cases h
    exact ⟨id,fun taken _ => ⟨taken,.single (.write taken text hwrite),fun _ h => h⟩⟩
  | error fault o =>
    rw [hwrite] at h
    cases h

/-- What was added since a mark is withdrawn. The mark is one of the run that added it. -/
theorem withdrawn (h : s.Within limit t)
    (hrollback : (liftM (Output.rollback s.output.mark) : Printer Unit) t = .ok () u) :
    s.Within limit u := by
  rw [writing_apply] at hrollback
  cases hback : Output.rollback s.output.mark t.output with
  | error fault o =>
    rw [hback] at hrollback
    cases hrollback
  | ok _ o =>
    rw [hback] at hrollback
    cases hrollback
    refine ⟨h.visits,fun taken hsound => ?_⟩
    have hmark : Marked.Step ⟨s.output,taken⟩ ⟨s.output,s.output :: taken⟩ := .mark _ _
    obtain ⟨taken',hrun,hkept⟩ := h.run _ (hsound.step hmark)
    refine ⟨_,((Relation.ReflTransGen.single hmark).trans hrun).tail
      (.rollback (hkept (.head _)) hback),fun before hbefore => ?_⟩
    have hle := (hsound.taken before hbefore).2.mark_le
    simpa using ⟨hkept (.tail _ hbefore),hle⟩

end Sheet.Within

def budgeted (limit : Nat) : Likeness where
  Holds v m n := ∀ s a t, m s = .ok a t → s.Within limit t ∧ ∃ b, n s = .ok b t ∧ v a b
  pure := by
    rintro α β v a b h s _ _ ⟨⟩
    exact ⟨.refl limit s,b,rfl,h⟩
  bind := by
    intro α β γ δ v w m n q r h hq s c u hrun
    obtain ⟨a,t,ha,hc⟩ := bind_ok hrun
    obtain ⟨hst,b,hb,hab⟩ := h s a t ha
    obtain ⟨htu,d,hd,hcd⟩ := hq a b hab t c u hc
    exact ⟨hst.trans htu,d,by rw [bind_apply,hb]; exact hd,hcd⟩

section
variable {limit : Nat}

theorem throws_budgeted (f g : Fault) : (budgeted limit).Throws f g := by
  rintro α β v s a t ⟨⟩

theorem write_budgeted (text : String) : (budgeted limit).Alike (write text) (write text) :=
  fun _ _ _ h => ⟨.write h,_,h,rfl⟩

theorem separator_budgeted (printed : Bool) :
    (budgeted limit).Alike (separator printed) (separator printed) :=
  Holds.ite (fun _ => write_budgeted _) fun _ => .pure rfl

theorem last_budgeted : (budgeted limit).Alike last last := by
  rintro s _ _ ⟨⟩
  exact ⟨.refl limit s,_,rfl,rfl⟩

theorem step_budgeted {config : Config} (h : config.outputSizeLimit ≤ limit) :
    (budgeted limit).Alike (step config) (step config) := by
  intro s _ t hstep
  obtain ⟨hroom,rfl⟩ := step_ok_iff.mp hstep
  exact ⟨⟨fun _ => Nat.le_trans hroom h,(Sheet.Within.refl limit s).run⟩,_,hstep,rfl⟩

/-- Every item is written behind a mark to which the list goes back if there was nothing to
write. -/
theorem list_budgeted {α β : Type} {print : α → Printer Unit} {print' : β → Printer Unit}
    {items : List α} {items' : List β}
    (h : List.Forall₂ (fun a b => (budgeted limit).Alike (print a) (print' b)) items items') :
    (budgeted limit).Alike (list print items) (list print' items') := by
  have from_here : ∀ printed, (budgeted limit).Alike (listFrom print printed items)
      (listFrom print' printed items') := by
    induction h with
    | nil => exact fun _ => Holds.pure rfl
    | @cons item item' items items' hitem _ ih =>
      intro printed s _ u hrun
      obtain ⟨s₁,s₂,hseparator,hprint⟩ := listFrom_cons_ok hrun
      obtain ⟨hs₁,_,hseparator',_⟩ := separator_budgeted printed s _ s₁ hseparator
      obtain ⟨hs₂,_,hprint',_⟩ := hitem s₁ _ s₂ hprint
      rw [listFrom_cons_run hseparator hprint] at hrun
      rw [listFrom_cons_run hseparator' hprint']
      by_cases hmark : s₂.output.mark = s₁.output.mark
      · rw [if_pos hmark] at hrun ⊢
        obtain ⟨_,s₃,hrollback,hrun⟩ := bind_ok hrun
        obtain ⟨hu,_,hrun',_⟩ := ih printed s₃ _ u hrun
        refine ⟨((hs₁.trans hs₂).withdrawn hrollback).trans hu,(),?_,rfl⟩
        rw [bind_apply,hrollback]
        exact hrun'
      · rw [if_neg hmark] at hrun ⊢
        obtain ⟨hu,_,hrun',_⟩ := ih true s₂ _ u hrun
        exact ⟨(hs₁.trans hs₂).trans hu,(),hrun',rfl⟩
  exact from_here false

theorem parallel_budgeted {config : Config} (h : config.outputSizeLimit ≤ limit) :
    Parallel (budgeted limit) config config :=
  parallel_of_writing rfl rfl (fun _ => throws_budgeted _ _) (step_budgeted h) write_budgeted
    last_budgeted list_budgeted

/-- Level by level, whatever is printed stays within the budget. -/
theorem Halves.levels_budgeted {config : Config} (h : config.outputSizeLimit ≤ limit) (n : Nat) :
    (Halves.levels config n).AllAlike (budgeted limit) (Halves.levels config n) :=
  Halves.levels_alike (parallel_budgeted h) (throws_budgeted _ _) (fun _ => throws_budgeted _ _)
    rfl rfl n

end

end MangledNames.Printing

namespace MangledNames

open Output (Marked)
open Printing

/-- What a run of operations leaves on an output that was empty. -/
theorem Output.Marked.Run.exact {limit : Int} {start : Output} {now : Marked}
    (hstart : Output.ofLimit? limit = some start) (hrun : Marked.Run ⟨start,[]⟩ now) :
    now.output.size = now.output.text.length ∧ now.output.size ≤ limit ∧
      ∀ piece ∈ now.output.chunks, piece ≠ "" := by
  have hempty : Marked.Sound ⟨start,[]⟩ := .unmarked (.ofLimit hstart)
  have hsound : Output.Sound now.output := (hempty.run hrun).output
  have hlimit : (now.output.limit : Int) = limit := by
    rw [hempty.limit hrun]
    unfold Output.ofLimit? at hstart
    split at hstart
    · cases hstart
      exact Int.toNat_of_nonneg (by omega)
    · cases hstart
  refine ⟨hsound.length_text.symm,?_,fun piece hpiece hnone => ?_⟩
  · have hsize := hsound.size_le
    rw [← hlimit]
    exact_mod_cast hsize
  · have hsome := hsound.pieces piece (by simpa using hpiece)
    simp [hnone] at hsome

theorem Node.render_ok {node : Node} {config : Config} {text : String}
    (h : node.render config = .ok text) :
    ∃ sheet, (Halves.levels config (levelsOf config)).print {} node (.blank config) = .ok () sheet ∧
      sheet.output.text = text := by
  unfold Node.render at h
  split at h
  · rename_i sheet hrun
    cases h
    exact ⟨sheet,hrun,rfl⟩
  · cases h

/-- However marks are taken within marks and gone back to, the size of an output is that of its
text and within the limit, and each mark that was not cut off brings back the text at which it was
taken. Whatever is printed is printed by such operations, with no more steps than characters may
be written. -/
theorem output_budget_is_exact :
    (∀ (limit : Int) (start : Output) (now : Marked), Output.ofLimit? limit = some start →
      Marked.Run ⟨start,[]⟩ now →
      (now.output.size = now.output.text.length ∧ now.output.size ≤ limit ∧
        ∀ piece ∈ now.output.chunks, piece ≠ "") ∧
      ∀ before ∈ now.taken, ∃ after,
        Output.rollback before.mark now.output = .ok () after ∧ after.text = before.text) ∧
    ∀ (node : Node) (config : Config) (text : String), node.render config = .ok text →
      text.length ≤ config.outputSizeLimit ∧
      ∃ sheet taken,
        (Halves.levels config (levelsOf config)).print {} node (.blank config) = .ok () sheet ∧
        Marked.Run ⟨(Sheet.blank config).output,[]⟩ ⟨sheet.output,taken⟩ ∧
        sheet.output.text = text ∧ sheet.visits ≤ config.outputSizeLimit := by
  constructor
  · intro limit start now hstart hrun
    have hsound : now.Sound := (Marked.Sound.unmarked (.ofLimit hstart)).run hrun
    exact ⟨hrun.exact hstart,fun before hbefore => ⟨before,hsound.rollback hbefore,rfl⟩⟩
  · intro node config text htext
    obtain ⟨sheet,hprint,rfl⟩ := node.render_ok htext
    obtain ⟨hwithin,_⟩ :=
      (Halves.levels_budgeted (Nat.le_refl _) (levelsOf config) {} node).print _ _ _ hprint
    have hblank : Marked.Sound ⟨(Sheet.blank config).output,[]⟩ := .unmarked (.blank config)
    obtain ⟨taken,hrun,_⟩ := hwithin.run [] hblank
    have hsound : Output.Sound sheet.output := (hblank.run hrun).output
    have hlimit : sheet.output.limit = config.outputSizeLimit := hblank.limit hrun
    refine ⟨?_,sheet,taken,hprint,hrun,rfl,hwithin.visits (Nat.zero_le _)⟩
    rw [← hlimit]
    exact Nat.le_trans (Nat.le_of_eq hsound.length_text) hsound.size_le

def Output.four : Output := { limit := 4, limit_pos := by decide }

theorem output_budget_is_exact_nested :
    (∃ now, Marked.Run ⟨Output.four,[]⟩ now ∧ now.output.text = "abcd" ∧
      now.output.size = now.output.text.length ∧
      ∃ before ∈ now.taken, ∃ after,
        Output.rollback before.mark now.output = .ok () after ∧ after.text = "ab") ∧
    (Node.templateName (.sourceName "f") [.templateArgPack [],.sourceName "x"]).render .standard =
      .ok "f<x>" ∧ "f<x>".length ≤ Config.standard.outputSizeLimit := by
  let ab : Output := { Output.four with chunks := #["ab"], size := 2 }
  let comma : Output := { Output.four with chunks := #["ab",", "], size := 4 }
  let abcd : Output := { Output.four with chunks := #["ab","cd"], size := 4 }
  have hrun : Marked.Run ⟨Output.four,[]⟩ ⟨abcd,[ab,ab]⟩ := by
    have hab : Marked.Run ⟨Output.four,[]⟩ ⟨ab,[]⟩ := .single (.write [] "ab" rfl)
    have hcomma : Marked.Run ⟨ab,[]⟩ ⟨comma,[comma,ab,ab]⟩ :=
      (((Relation.ReflTransGen.single (.mark ab [])).tail (.mark ab [ab])).tail
        (.write _ ", " rfl)).tail (.mark comma _)
    have hcommas : Marked.Sound ⟨comma,[comma,ab,ab]⟩ :=
      (Marked.Sound.unmarked (.ofLimit (show Output.ofLimit? 4 = some Output.four from rfl))).run
        (hab.trans hcomma)
    -- the inner mark goes with what it followed, the outer ones stay
    have hback : Marked.Run ⟨comma,[comma,ab,ab]⟩ ⟨ab,[ab,ab]⟩ :=
      .single (.rollback (.tail _ (.head _)) (hcommas.rollback (.tail _ (.head _))))
    exact ((hab.trans hcomma).trans hback).tail (.write _ "cd" rfl)
  have htext : (Node.templateName (.sourceName "f") [.templateArgPack [],.sourceName "x"]).render
      .standard = .ok "f<x>" := by decide +kernel
  obtain ⟨hmarked,hprinted⟩ := output_budget_is_exact
  obtain ⟨⟨hsize,_,_⟩,htaken⟩ := hmarked 4 Output.four _ rfl hrun
  obtain ⟨after,hback,hafter⟩ := htaken ab (.head _)
  exact ⟨⟨_,hrun,rfl,hsize,ab,.head _,after,hback,hafter⟩,htext,(hprinted _ _ _ htext).1⟩

end MangledNames
