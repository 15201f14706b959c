import Mathlib.Logic.Relation
import MangledNames.Proofs.Printing.Texts
set_option autoImplicit false

/-!
Marks on an output: what was there when a mark was taken is there again when the output goes back
to it, whatever was written, marked and withdrawn in between.
-/

namespace MangledNames

/-- An output, and the outputs at which the marks were taken that it can still go back to. -/
structure Output.Marked where
  output : Output
  taken : List Output := []

namespace Output.Marked

/-- One operation that succeeds. To go back to a mark cuts off the marks beyond it. -/
inductive Step : Marked → Marked → Prop where
  | write {o o' : Output} (taken : List Output) (text : String) :
      Output.write text o = .ok () o' → Step ⟨o,taken⟩ ⟨o',taken⟩
  | mark (o : Output) (taken : List Output) : Step ⟨o,taken⟩ ⟨o,o :: taken⟩
  | rollback {o o' before : Output} {taken : List Output} : before ∈ taken →
      Output.rollback before.mark o = .ok () o' →
      Step ⟨o,taken⟩ ⟨o',taken.filter (·.mark ≤ before.mark)⟩

/-- A sequence of operations that succeed. -/
abbrev Run : Marked → Marked → Prop := Relation.ReflTransGen Step

end Output.Marked

namespace Printing

/-- Of two outputs that lead to the same one, the shorter leads to the longer. -/
theorem Sheet.Leads.of_mark_le {a b c : Sheet} (hb : b.Sound) (hac : a.Leads c) (hbc : b.Leads c)
    (hmark : a.output.mark ≤ b.output.mark) (hvisits : a.visits ≤ b.visits) : a.Leads b := by
  obtain ⟨x,hx,hxs⟩ := hac.pieces
  obtain ⟨y,hy,_⟩ := hbc.pieces
  have hprefix : a.output.chunks.toList <+: b.output.chunks.toList := by
    refine List.prefix_of_prefix_length_le ⟨x,hx.symm⟩ ⟨y,hy.symm⟩ ?_
    simpa [Output.mark] using hmark
  obtain ⟨z,hz⟩ := hprefix
  refine ⟨⟨z,hz.symm,fun piece hpiece => hb.pieces piece ?_⟩,fun _ => ⟨hb.size,hb.size_le⟩,
    hbc.limit.symm.trans hac.limit,hvisits⟩
  rw [← hz]
  exact List.mem_append_right _ hpiece

end Printing

namespace Output

open Printing

/-- No piece is empty, and the size counts the characters of all of them within the limit. -/
abbrev Sound (o : Output) : Prop := Sheet.Sound ⟨o,0⟩

/-- The second output has the text of the first and maybe more. -/
abbrev Leads (o o' : Output) : Prop := Sheet.Leads ⟨o,0⟩ ⟨o',0⟩

theorem Sound.ofLimit {limit : Int} {o : Output} (h : ofLimit? limit = some o) : o.Sound := by
  unfold ofLimit? at h
  split at h
  · cases h
    exact ⟨by simp,rfl,Nat.zero_le _⟩
  · cases h

theorem Leads.write {text : String} {o o' : Output} (ho : o.Sound)
    (h : Output.write text o = .ok () o') : o.Leads o' := by
  have hrun : Printing.write text ⟨o,0⟩ = .ok () ⟨o',0⟩ := by
    change (liftM (Output.write text) : Printer Unit) ⟨o,0⟩ = _
    rw [writing_apply,h]
  have hends := (write_prints text).ends ⟨o,0⟩ ho
  rw [hrun] at hends
  exact hends.1

theorem Leads.rollback {before o : Output} (hbefore : before.Sound) (h : before.Leads o) :
    Output.rollback before.mark o = .ok () before := by
  have hrun := rollback_apply hbefore h
  rw [writing_apply] at hrun
  cases hresult : Output.rollback before.mark o with
  | ok _ o' =>
    rw [hresult] at hrun
    cases hrun
    rfl
  | error fault o' =>
    rw [hresult] at hrun
    cases hrun

namespace Marked

/-- What was there when a mark was taken is still there. -/
structure Sound (m : Marked) : Prop where
  output : m.output.Sound
  taken : ∀ before ∈ m.taken, before.Sound ∧ before.Leads m.output

theorem Sound.unmarked {o : Output} (h : o.Sound) : Sound ⟨o,[]⟩ :=
  ⟨h,List.forall_mem_nil _⟩

theorem Sound.step {m m' : Marked} (h : m.Sound) (hstep : Step m m') : m'.Sound := by
  cases hstep with
  | @write o o' taken text hwrite =>
    have hleads := Leads.write h.output hwrite
    refine ⟨hleads.sound h.output,fun before hbefore => ?_⟩
    exact ⟨(h.taken before hbefore).1,(h.taken before hbefore).2.trans hleads⟩
  | mark o taken =>
    refine ⟨h.output,fun before hbefore => ?_⟩
    rcases List.mem_cons.mp hbefore with rfl | hbefore
    · exact ⟨h.output,.refl _⟩
    · exact h.taken before hbefore
  | @rollback o o' start taken hstart hrollback =>
    obtain ⟨hsound,hleads⟩ := h.taken start hstart
    rw [hleads.rollback hsound] at hrollback
    cases hrollback
    refine ⟨hsound,fun before hbefore => ?_⟩
    rw [List.mem_filter,decide_eq_true_eq] at hbefore
    obtain ⟨hbefore,hmark⟩ := hbefore
    have htaken := h.taken before hbefore
    exact ⟨htaken.1,htaken.2.of_mark_le hsound hleads hmark (Nat.le_refl 0)⟩

theorem Sound.run {m m' : Marked} (h : m.Sound) (hrun : Run m m') : m'.Sound := by
  induction hrun with
  | refl => exact h
  | tail _ hstep ih => exact ih.step hstep

theorem Sound.limit {m m' : Marked} (h : m.Sound) (hrun : Run m m') :
    m'.output.limit = m.output.limit := by
  induction hrun with
  | refl => rfl
  | tail hrun hstep ih =>
    rw [← ih]
    have hsound := h.run hrun
    cases hstep with
    | write taken text hwrite => exact (Leads.write hsound.output hwrite).limit
    | mark o taken => rfl
    | rollback hstart hrollback =>
      obtain ⟨hstart,hleads⟩ := hsound.taken _ hstart
      rw [hleads.rollback hstart] at hrollback
      cases hrollback
      exact hleads.limit.symm

/-- Every mark that was not cut off can be gone back to. -/
theorem Sound.rollback {m : Marked} (h : m.Sound) {before : Output} (hbefore : before ∈ m.taken) :
    Output.rollback before.mark m.output = .ok () before :=
  (h.taken before hbefore).2.rollback (h.taken before hbefore).1

end Marked

end Output

end MangledNames
