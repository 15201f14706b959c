import MangledNames.Proofs.Printing.Sheet
import MangledNames.Proofs.Printing.ParallelHalves
set_option autoImplicit false

/-!
Printing under other limits: until a limit is reached, the same pieces are on the sheet.
-/

namespace MangledNames.Printing

open Simulation

/-- Sheets with the same pieces. Unless either run may be cut off (`free`), the first has no more
room left than the second. -/
structure Sheet.Same (free : Bool) (s t : Sheet) : Prop where
  chunks : s.output.chunks = t.output.chunks
  size : s.output.size = t.output.size
  visits : free = false → s.visits = t.visits
  limit : free = false → s.output.limit ≤ t.output.limit

/-- Runs that keep the same pieces on their sheets until a limit cuts one of them off. Where either
may be cut off, nothing else but a broken promise ends them early. -/
def lockstep (free : Bool) : Simulation Sheet Sheet where
  states := Sheet.Same free
  faults fault fault' := fault = fault' ∧ (free = true → ¬fault.IsError)
  cutLeft := Fault.IsLimit
  cutRight fault := free = true ∧ fault.IsLimit

theorem broken_not_isError (promise : Promise) : ¬(Fault.broken promise).IsError := nofun

/-- The same options, and for the first no more room than for the second. -/
structure SameOptions (free : Bool) (config config' : Config) : Prop where
  omitParameterList : config.omitParameterList = config'.omitParameterList
  omitReturnType : config.omitReturnType = config'.omitReturnType
  literalCase : config.literalCase = config'.literalCase
  closingAngleSpace : config.closingAngleSpace = config'.closingAngleSpace
  outputSizeLimit : free = false → config.outputSizeLimit ≤ config'.outputSizeLimit

section
variable {free : Bool}

theorem matches_of_room {s t s' t' : Sheet} {f f' : Fault} {full full' : Prop}
    [Decidable full] [Decidable full'] (hf : f.IsLimit) (hf' : f'.IsLimit)
    (hroom : free = false → full' → full) (hst : Sheet.Same free s' t') :
    (lockstep free).Matches Eq
      (if full then .error f s else .ok () s' : EStateM.Result Fault Sheet Unit)
      (if full' then .error f' t else .ok () t' : EStateM.Result Fault Sheet Unit) := by
  by_cases hfull : full
  · rw [if_pos hfull]
    exact Matches.cutLeft hf _
  · rw [if_neg hfull]
    by_cases hfull' : full'
    · rw [if_pos hfull']
      cases free with
      | true => exact ⟨rfl,hf'⟩
      | false => exact absurd (hroom rfl hfull') hfull
    · rw [if_neg hfull']
      exact ⟨rfl,hst⟩

theorem step_lockstep {config config' : Config} (ho : SameOptions free config config') :
    (lockstep free).Alike (step config) (step config') := by
  refine ⟨fun s t hst => ?_⟩
  rw [step_apply,step_apply]
  refine matches_of_room ⟨_,rfl,rfl⟩ ⟨_,rfl,rfl⟩ (fun hfree hfull => ?_) ?_
  · have hvisits := hst.visits hfree
    have hlimit := ho.outputSizeLimit hfree
    omega
  · exact ⟨hst.chunks,hst.size,fun hfree => congrArg (· + 1) (hst.visits hfree),hst.limit⟩

/-- Where either run may be cut off, a step of the first alone does not count. -/
theorem step_lockstep_left {α β : Type} {values : α → β → Prop} (config : Config) {m : Printer α}
    {m' : Printer β} (h : (lockstep true).Holds values m m') :
    (lockstep true).Holds values (step config >>= fun _ => m) m' := by
  refine ⟨fun s t hst => ?_⟩
  rw [bind_apply,step_apply]
  by_cases hfull : s.visits + 1 > config.outputSizeLimit
  · rw [if_pos hfull]
    exact Matches.cutLeft (S := lockstep true) ⟨_,rfl,rfl⟩ _
  · rw [if_neg hfull]
    exact h.results _ _ ⟨hst.chunks,hst.size,nofun,nofun⟩

theorem write_lockstep (text : String) : (lockstep free).Alike (write text) (write text) := by
  refine ⟨fun s t hst => ?_⟩
  rw [write_apply,write_apply]
  by_cases htext : text.isEmpty = true
  · rw [if_pos htext,if_pos htext]
    exact ⟨rfl,hst⟩
  · rw [if_neg htext,if_neg htext]
    refine matches_of_room ⟨_,rfl,rfl⟩ ⟨_,rfl,rfl⟩ (fun hfree hfull => ?_) ?_
    · have hsize := hst.size
      have hlimit := hst.limit hfree
      omega
    · exact ⟨by rw [hst.chunks],by rw [hst.size],hst.visits,hst.limit⟩

theorem mark_lockstep : (lockstep free).Alike mark mark :=
  ⟨fun _ _ hst => ⟨congrArg Array.size hst.chunks,hst⟩⟩

theorem last_lockstep : (lockstep free).Alike last last :=
  ⟨fun s t hst => ⟨by unfold Output.last; rw [hst.chunks],hst⟩⟩

/-- Equal pieces are withdrawn alike, whatever the mark is. -/
theorem rollback_lockstep (mark : Int) :
    (lockstep free).Alike (liftM (Output.rollback mark) : Printer Unit)
      (liftM (Output.rollback mark)) := by
  refine ⟨fun s t hst => ?_⟩
  have hmark : s.output.mark = t.output.mark := congrArg Array.size hst.chunks
  rw [writing_apply,writing_apply]
  unfold Output.rollback
  rw [hmark]
  by_cases hbehind : 0 ≤ mark ∧ mark ≤ t.output.mark
  · rw [if_pos hbehind,if_pos hbehind]
    refine ⟨rfl,?_,?_,hst.visits,hst.limit⟩
    · rw [hst.chunks]
    · simp only [hst.chunks,hst.size]
  · rw [if_neg hbehind,if_neg hbehind]
    exact .inr (.inr ⟨⟨rfl,fun _ => broken_not_isError _⟩,hst⟩)

theorem list_lockstep {α β : Type} {print : α → Printer Unit} {print' : β → Printer Unit}
    {items : List α} {items' : List β}
    (h : List.Forall₂ (fun a b => (lockstep free).Alike (print a) (print' b)) items items') :
    (lockstep free).Alike (list print items) (list print' items') := by
  have from_here : ∀ printed, (lockstep free).Alike (listFrom print printed items)
      (listFrom print' printed items') := by
    induction h with
    | nil => exact fun _ => Holds.pure rfl
    | cons hitem _ ih =>
      intro printed
      unfold listFrom
      refine mark_lockstep.bind fun before => ?_
      refine Holds.guard (write_lockstep ", ") (mark_lockstep.bind fun content => ?_)
      refine hitem.bind fun _ => mark_lockstep.bind fun after => ?_
      refine Holds.ite (fun _ => ?_) fun _ => ih true
      exact (rollback_lockstep before).bind fun _ => ih printed
  exact from_here false

/-- Configurations that differ in their limits only print in lockstep. -/
theorem parallel_lockstep {config config' : Config} (ho : SameOptions free config config') :
    Parallel (lockstep free) config config' :=
  parallel_of_writing ho.literalCase ho.closingAngleSpace
    (fun _ => throws_of_faults (S := lockstep free) ⟨rfl,fun _ => broken_not_isError _⟩)
    (step_lockstep ho) write_lockstep last_lockstep list_lockstep

end

theorem exhausted_fails (config : Config) (sheet : Sheet) :
    ∃ fault after, (do
      step config
      fail (.recursionLimitExceeded config.recursionLimit) : Printer Unit) sheet =
        .error fault after ∧ fault.IsLimit := by
  rw [bind_apply,step_apply]
  by_cases hfull : sheet.visits + 1 > config.outputSizeLimit
  · exact ⟨_,_,by rw [if_pos hfull],_,rfl,rfl⟩
  · exact ⟨_,_,by rw [if_neg hfull]; rfl,_,rfl,rfl⟩

theorem Halves.exhausted_lockstep (free : Bool) (config : Config) (h : Halves)
    (place place' : Place) (node node' : Node) :
    (Halves.exhausted config).Alike (lockstep free) h place place' node node' := by
  have cut : ∀ m : Printer Unit, (lockstep free).Alike
      (do
        step config
        fail (.recursionLimitExceeded config.recursionLimit)) m := by
    refine fun m => ⟨fun s t _ => ?_⟩
    obtain ⟨fault,after,hrun,hfault⟩ := exhausted_fails config s
    rw [hrun]
    exact Matches.cutLeft (S := lockstep free) hfault _
  exact ⟨cut _,cut _⟩

theorem Halves.lockstep_exhausted (h : Halves) (config : Config) (place place' : Place)
    (node node' : Node) :
    h.Alike (lockstep true) (Halves.exhausted config) place place' node node' := by
  have cut : ∀ m : Printer Unit, (lockstep true).Alike m
      (do
        step config
        fail (.recursionLimitExceeded config.recursionLimit)) := by
    refine fun m => ⟨fun _ t _ => ?_⟩
    obtain ⟨fault,after,hrun,hfault⟩ := exhausted_fails config t
    rw [hrun]
    exact Matches.cutRight (S := lockstep true) ⟨rfl,hfault⟩ _
  exact ⟨cut _,cut _⟩

/-- Fewer levels only cut off what more levels print. -/
theorem Halves.levels_lockstep {config config' : Config} (ho : SameOptions false config config')
    {n k : Nat} (hn : n ≤ k) :
    (Halves.levels config n).AllAlike (lockstep false) (Halves.levels config' k) := by
  induction n generalizing k with
  | zero => exact fun place node => Halves.exhausted_lockstep false config _ place place node node
  | succ n ih =>
    cases k with
    | zero => exact absurd hn (Nat.not_succ_le_zero n)
    | succ k =>
      have herrors : ∀ error, Likeness.Throws (lockstep false) (.error error) (.error error) :=
        fun _ => throws_of_faults (S := lockstep false) ⟨rfl,nofun⟩
      have hbelow := ih (Nat.le_of_succ_le_succ hn)
      exact Halves.next_alike (parallel_lockstep ho) herrors hbelow fun place =>
        function_same (parallel_lockstep ho) herrors hbelow place ho.omitReturnType
          ho.omitParameterList

end MangledNames.Printing
