import MangledNames.Proofs.Printing.FunctionParts
import MangledNames.Proofs.Printing.ParallelHalves
import MangledNames.Proofs.Printing.Sheet
set_option autoImplicit false

/-!
Printing less: where parameter lists or return types are left out, whatever was printed with them
still can be, and takes no more room.
-/

namespace MangledNames.Printing

open Likeness

/-- The second sheet has room for whatever the first has room for. Where it ends otherwise it is
shorter, so that one blank more on it does not matter. -/
structure Sheet.Spares (s s' : Sheet) : Prop where
  sound : s.Sound
  sound' : s'.Sound
  limit : s.output.limit ≤ s'.output.limit
  size : s'.output.size ≤ s.output.size
  visits : s'.visits ≤ s.visits
  last : s'.output.last = s.output.last ∨ s'.output.size < s.output.size

/-- What the first run adds to its sheet is left out by the second. -/
theorem Sheet.Spares.leads {s s' t : Sheet} (h : s.Spares s') (ht : s.Leads t) : t.Spares s' where
  sound := ht.sound h.sound
  sound' := h.sound'
  limit := by
    rw [ht.limit]
    exact h.limit
  size := Nat.le_trans h.size (ht.size_le h.sound)
  visits := Nat.le_trans h.visits ht.visits
  last := by
    rcases ht.grows h.sound with hsame | hlonger
    · have hsize := ht.size_le h.sound
      refine h.last.imp (fun hlast => ?_) fun hshorter => by omega
      rw [hlast]
      unfold Output.last
      rw [hsame]
    · have hsize := h.size
      exact .inr (by omega)

/-- Ends of two runs from `s` and from `s'`: both sheets only got longer, the second not without the
first, and what is left on them is as before. -/
structure Sheet.Spared (s s' t t' : Sheet) : Prop where
  leads : s.Leads t
  leads' : s'.Leads t'
  spares : t.Spares t'
  shows : t.output.mark = s.output.mark → t'.output.mark = s'.output.mark

theorem Sheet.Spared.refl {s s' : Sheet} (h : s.Spares s') : s.Spared s' s s' :=
  ⟨.refl s,.refl s',h,fun _ => rfl⟩

theorem Sheet.Spared.trans {s s' t t' u u' : Sheet} (h : s.Spared s' t t') (h' : t.Spared t' u u') :
    s.Spared s' u u' where
  leads := h.leads.trans h'.leads
  leads' := h.leads'.trans h'.leads'
  spares := h'.spares
  shows hmark := by
    have hle := h.leads.mark_le
    have hle' := h'.leads.mark_le
    have hfirst := h.shows (by omega)
    have hsecond := h'.shows (by omega)
    omega

/-- If the first run comes to a value, so does the second, and it has spared whatever it left
out. -/
structure Sparing {α β : Type} (v : α → β → Prop) (m : Printer α) (m' : Printer β) : Prop where
  results : ∀ s s' : Sheet, s.Spares s' → ∀ a t, m s = .ok a t →
    ∃ b t', m' s' = .ok b t' ∧ v a b ∧ s.Spared s' t t'

def sparing : Likeness where
  Holds := Sparing
  pure hv := by
    refine ⟨fun s s' hs a t ht => ?_⟩
    cases ht
    exact ⟨_,s',rfl,hv,.refl hs⟩
  bind hm hq := by
    refine ⟨fun s s' hs c u hu => ?_⟩
    obtain ⟨a,t,ht,hu⟩ := bind_ok hu
    obtain ⟨b,t',ht',hab,hst⟩ := hm.results s s' hs a t ht
    obtain ⟨d,u',hu',hcd,htu⟩ := (hq a b hab).results t t' hst.spares c u hu
    exact ⟨d,u',by rw [bind_apply,ht']; exact hu',hcd,hst.trans htu⟩

theorem throws_sparing (f g : Fault) : sparing.Throws f g :=
  fun _ => ⟨fun _ _ _ _ _ => nofun⟩

/-- What a run that spares prints can be left out. -/
theorem skip_sparing {α β : Type} {v : α → β → Prop} {m : Printer α} {m' : Printer β}
    (h : sparing.Holds v m m') : sparing.Holds (fun _ _ => True) m (pure ⟨⟩ : Printer PUnit) := by
  refine ⟨fun s s' hs a t ht => ?_⟩
  obtain ⟨_,_,_,_,hst⟩ := h.results s s' hs a t ht
  exact ⟨⟨⟩,s',rfl,trivial,hst.leads,.refl s',hs.leads hst.leads,fun _ => rfl⟩

theorem leave_out_sparing {m m' : Printer Unit} (h : sparing.Alike m m') :
    sparing.Alike m (pure ()) :=
  Holds.imp (skip_sparing h) fun _ _ _ => rfl

section
variable {text : String} {s s' : Sheet}

/-- The same text on both sheets, of which the second may have been longer by
what the first has room for. -/
theorem Sheet.Spares.put (hs : s.Sound) (hs' : s'.Sound) (hlimit : s.output.limit ≤ s'.output.limit)
    (hvisits : s'.visits ≤ s.visits) (htext : text.isEmpty = false)
    (hsize : s'.output.size ≤ s.output.size)
    (hroom : s.output.size + text.length ≤ s.output.limit) : (s.put text).Spares (s'.put text) where
  sound := (leads_put htext hroom).sound hs
  sound' := (leads_put htext (by omega)).sound hs'
  limit := hlimit
  size := Nat.add_le_add_right hsize _
  visits := hvisits
  last := .inl (by rw [last_put,last_put])

end

theorem write_sparing (text : String) : sparing.Alike (write text) (write text) := by
  refine ⟨fun s s' hs a t ht => ?_⟩
  cases htext : text.isEmpty with
  | true =>
    rw [write_apply,htext] at ht
    cases ht
    exact ⟨_,s',by rw [write_apply,htext]; rfl,rfl,.refl hs⟩
  | false =>
    obtain ⟨hroom,rfl⟩ := put_of_write htext ht
    have hsize := hs.size
    have hlimit := hs.limit
    have hroom' : s'.output.size + text.length ≤ s'.output.limit := by omega
    refine ⟨_,_,write_put htext hroom',rfl,leads_put htext hroom,leads_put htext hroom',
      .put hs.sound hs.sound' hlimit hs.visits htext hsize hroom,fun hmark => ?_⟩
    simp [Sheet.put,Output.mark] at hmark

theorem step_sparing {config config' : Config}
    (hlimit : config.outputSizeLimit ≤ config'.outputSizeLimit) :
    sparing.Alike (step config) (step config') := by
  refine ⟨fun s s' hs a t ht => ?_⟩
  have further : ∀ sheet : Sheet, sheet.Leads ⟨sheet.output,sheet.visits + 1⟩ :=
    fun sheet => .visited (Nat.le_succ _)
  have hvisits := hs.visits
  obtain ⟨hroom,rfl⟩ := step_ok_iff.mp ht
  refine ⟨(),⟨s'.output,s'.visits + 1⟩,step_ok_iff.mpr ⟨by omega,rfl⟩,rfl,further s,further s',?_,
    fun _ => rfl⟩
  exact ⟨(further s).sound hs.sound,(further s').sound hs.sound',hs.limit,hs.size,
    Nat.add_le_add_right hvisits 1,hs.last⟩

def apart (blank : Bool) (text : String) : Printer Unit := do
  if blank then write " "
  write text

/-- Whether a text has to stand apart is seen from the end of the sheet, and what ends otherwise has
room for one blank more. -/
theorem apart_sparing {text : String} (htext : text.isEmpty = false) {blank blank' : Bool}
    {s s' t : Sheet} (hs : s.Spares s') (hblank : blank = blank' ∨ s'.output.size < s.output.size)
    (ht : apart blank text s = .ok () t) :
    ∃ b t', apart blank' text s' = .ok b t' ∧ () = b ∧ s.Spared s' t t' := by
  have hwrite : sparing.Alike (write text) (write text) := write_sparing text
  have hspace : sparing.Alike (write " ") (write " ") := write_sparing " "
  match blank, blank' with
  | true, true => exact (hspace.bind fun _ => hwrite).results s s' hs () t ht
  | false, false => exact hwrite.results s s' hs () t ht
  | true, false =>
    have hskipped : sparing.Alike (write " " >>= fun _ => write text)
        ((pure ⟨⟩ : Printer PUnit) >>= fun _ => write text) :=
      sparing.bind (skip_sparing hspace) fun _ _ _ => hwrite
    exact hskipped.results s s' hs () t ht
  | false, true =>
    obtain ⟨hroom,rfl⟩ := put_of_write htext ht
    have hshorter : s'.output.size < s.output.size := hblank.resolve_left nofun
    have hlimit := hs.limit
    have hspaced : s'.output.size + " ".length ≤ s'.output.limit := by
      have hlength : " ".length = 1 := rfl
      omega
    have hsize : (s'.put " ").output.size ≤ s.output.size := hshorter
    have hroom' : (s'.put " ").output.size + text.length ≤ (s'.put " ").output.limit := by
      have hsame : (s'.put " ").output.limit = s'.output.limit := rfl
      omega
    have hblanks : s'.Leads (s'.put " ") := leads_put rfl hspaced
    refine ⟨(),(s'.put " ").put text,?_,rfl,leads_put htext hroom,
      hblanks.trans (leads_put htext hroom'),
      .put hs.sound (hblanks.sound hs.sound') hlimit hs.visits htext hsize hroom,fun hmark => ?_⟩
    · change (write " " >>= fun _ => write text) s' = _
      rw [bind_apply,write_put rfl hspaced]
      exact write_put htext hroom'
    · simp [Sheet.put,Output.mark] at hmark

theorem last_apart_sparing (text : String) (htext : text.isEmpty = false)
    (blank : Option Char → Bool) :
    sparing.Alike (last >>= fun c => apart (blank c) text)
      (last >>= fun c => apart (blank c) text) := by
  refine ⟨fun s s' hs a t ht => ?_⟩
  refine apart_sparing htext hs (hs.last.imp_left fun hlast => ?_) ht
  rw [hlast]

theorem separator_sparing {printed printed' : Bool} (hprinted : printed' = true → printed = true) :
    sparing.Holds (fun _ _ => True) (separator printed) (separator printed') := by
  match printed, printed' with
  | true, true => exact Holds.imp (write_sparing ", ") fun _ _ _ => trivial
  | true, false => exact skip_sparing (write_sparing ", ")
  | false, true => exact absurd (hprinted rfl) nofun
  | false, false => exact Holds.pure trivial

section
variable {α β : Type} {print : α → Printer Unit} {print' : β → Printer Unit}

/-- An item that shows nothing takes its separator with it, which the first one does not have. -/
theorem listFrom_cons_sparing {item : α} {item' : β} {items : List α} {items' : List β}
    {printed printed' : Bool} (hprinted : printed' = true → printed = true)
    (hitem : sparing.Alike (print item) (print' item'))
    (hrest : ∀ printed printed', (printed' = true → printed = true) →
      sparing.Alike (listFrom print printed items) (listFrom print' printed' items')) :
    sparing.Alike (listFrom print printed (item :: items))
      (listFrom print' printed' (item' :: items')) := by
  refine ⟨fun s s' hs _ u hu => ?_⟩
  obtain ⟨s₁,s₂,hseparator,hprint⟩ := listFrom_cons_ok hu
  obtain ⟨_,s₁',hseparator',_,hfirst⟩ := (separator_sparing hprinted).results _ _ hs _ _ hseparator
  obtain ⟨_,s₂',hprint',_,hsecond⟩ := hitem.results _ _ hfirst.spares _ _ hprint
  have hboth := hfirst.trans hsecond
  have hspares := hboth.spares
  have rest : ∀ {printed printed' t t'}, (printed' = true → printed = true) → s.Spared s' t t' →
      listFrom print printed items t = .ok () u →
      ∃ b u', listFrom print' printed' items' t' = .ok b u' ∧ () = b ∧ s.Spared s' u u' := by
    intro printed printed' t t' hprinted ht hu
    obtain ⟨b,u',hu',hb,htu⟩ := (hrest printed printed' hprinted).results t t' ht.spares () u hu
    exact ⟨b,u',hu',hb,ht.trans htu⟩
  have back : s.Leads ⟨s.output,s₂.visits⟩ := .visited hboth.leads.visits
  have back' : s'.Leads ⟨s'.output,s₂'.visits⟩ := .visited hboth.leads'.visits
  rw [listFrom_cons_apply hs.sound hseparator hprint hboth.leads] at hu
  rw [listFrom_cons_apply hs.sound' hseparator' hprint' hboth.leads']
  by_cases hmark : s₂.output.mark = s₁.output.mark
  -- The first shows nothing, and neither does the second.
  · rw [if_pos hmark] at hu
    rw [if_pos (hsecond.shows hmark)]
    refine rest hprinted ⟨back,back',?_,fun _ => rfl⟩ hu
    exact ⟨back.sound hs.sound,back'.sound hs.sound',hs.limit,hs.size,hspares.visits,hs.last⟩
  · rw [if_neg hmark] at hu
    by_cases hmark' : s₂'.output.mark = s₁'.output.mark
    -- Only the second shows nothing: it stays where it was, without a separator.
    · rw [if_pos hmark']
      have hleft := hs.leads hboth.leads
      refine rest (fun _ => rfl) ⟨hboth.leads,back',?_,fun _ => rfl⟩ hu
      exact ⟨hleft.sound,back'.sound hs.sound',hleft.limit,hleft.size,hspares.visits,hleft.last⟩
    · rw [if_neg hmark']
      exact rest id hboth hu

theorem list_sparing {items : List α} {items' : List β}
    (h : List.Forall₂ (fun a b => sparing.Alike (print a) (print' b)) items items') :
    sparing.Alike (list print items) (list print' items') := by
  have from_here : ∀ printed printed', (printed' = true → printed = true) →
      sparing.Alike (listFrom print printed items) (listFrom print' printed' items') := by
    induction h with
    | nil => exact fun _ _ _ => Holds.pure rfl
    | cons hitem _ ih => exact fun _ _ hprinted => listFrom_cons_sparing hprinted hitem ih
  exact from_here false false id

end

/-- The second configuration leaves out what the first does, or more. -/
structure Omits (config config' : Config) : Prop where
  omitParameterList : config.omitParameterList = true → config'.omitParameterList = true
  omitReturnType : config.omitReturnType = true → config'.omitReturnType = true
  literalCase : config.literalCase = config'.literalCase
  closingAngleSpace : config.closingAngleSpace = config'.closingAngleSpace
  outputSizeLimit : config.outputSizeLimit ≤ config'.outputSizeLimit

section
variable {config config' : Config} (ho : Omits config config')
include ho

theorem parallel_sparing : Parallel sparing config config' where
  broken _ := throws_sparing _ _
  step := step_sparing ho.outputSizeLimit
  write := write_sparing
  suffixed value suffix := by
    have hcased : cased config suffix = cased config' suffix := by
      unfold cased
      rw [ho.literalCase]
    rw [hcased]
    exact write_sparing _
  expanded name := by
    rw [ho.closingAngleSpace]
    exact write_sparing _
  closing := by
    have hclosing :=
      last_apart_sparing ">" rfl fun c => config.closingAngleSpace && c == some '>'
    rw [← ho.closingAngleSpace]
    exact hclosing
  bound {m m'} hrest := by
    have hopening := last_apart_sparing "[" rfl fun c => !(c == some ']')
    have opened : ∀ m : Printer Unit,
        (do
          unless (← last) == some ']' do write " "
          write "["
          m) = ((last >>= fun c => apart (!(c == some ']')) "[") >>= fun _ => m) := by
      intro m
      rw [bind_assoc]
      refine bind_congr fun c => ?_
      cases hc : c == some ']' <;> simp [apart]
    rw [opened,opened]
    exact hopening.bind fun _ => hrest
  list := list_sparing

theorem unlessOmitted_sparing {m m' : Printer Unit} (hm : sparing.Alike m m') :
    sparing.Alike (unlessOmitted config.omitParameterList m)
      (unlessOmitted config'.omitParameterList m') := by
  unfold unlessOmitted
  cases homit : config.omitParameterList with
  | true =>
    rw [if_pos rfl,if_pos (ho.omitParameterList homit)]
    exact Holds.pure rfl
  | false =>
    rw [if_neg nofun]
    cases config'.omitParameterList with
    | true => exact leave_out_sparing hm
    | false => exact hm

/-- What is printed of a return type, and nothing if there is none. -/
theorem shownReturn_sparing {print print' : Option Node → Printer Unit}
    (hnone : print none = pure ()) (hnone' : print' none = pure ())
    (hsome : ∀ type, sparing.Alike (print (some type)) (print' (some type))) (s : Signature Node) :
    sparing.Alike (print (shownReturn config s)) (print' (shownReturn config' s)) := by
  have hsame : ∀ type, sparing.Alike (print type) (print' type) := by
    rintro (_ | type)
    · rw [hnone,hnone']
      exact Holds.pure rfl
    · exact hsome type
  unfold shownReturn
  cases homit' : config'.omitReturnType with
  | true =>
    rw [if_pos rfl,hnone']
    exact leave_out_sparing (hsame _)
  | false =>
    have homit : config.omitReturnType ≠ true := fun homit =>
      absurd (homit'.symm.trans (ho.omitReturnType homit)) nofun
    rw [if_neg homit,if_neg nofun]
    exact hsame _

variable {h h' : Halves} (hh : h.AllAlike sparing h') (place : Place)
include hh

/-- What is printed of a function under both configurations is printed alike, the rest is left
out. -/
theorem function_sparing (name : Node) (s : Signature Node) :
    sparing.Alike (function config h place name s) (function config' h' place name s) := by
  have P := parallel_sparing ho
  have herrors : ∀ error, sparing.Throws (.error error) (.error error) :=
    fun _ => throws_sparing _ _
  have before : sparing.Alike (beforeName config h place (shownReturn config s))
      (beforeName config' h' place (shownReturn config' s)) := by
    refine shownReturn_sparing ho rfl rfl (fun type => (hh place type).left.bind fun _ => ?_) s
    refine (hasRightSide_alike P herrors place type).bind fun right => ?_
    exact Holds.ite (fun _ => Holds.pure rfl) fun _ => P.write _
  have behind : sparing.Alike (behindName h place (shownReturn config s))
      (behindName h' place (shownReturn config' s)) :=
    shownReturn_sparing ho rfl rfl (fun type => (hh place type).right) s
  have parameters : sparing.Alike (parameterList h place s.parameters)
      (parameterList h' place s.parameters) :=
    write_then_alike P _ (then_write_alike P (printList_alike P (allAlike_list hh place _)) _)
  have qualifiers : sparing.Alike (memberQualifiers s.cv s.ref) (memberQualifiers s.cv s.ref) :=
    (cvQualifiers_alike P _).bind fun _ => refQualifier_alike P _
  rw [function_parts,function_parts]
  refine before.bind fun _ => (hh place name).print.bind fun _ => ?_
  exact (unlessOmitted_sparing ho parameters).bind fun _ => behind.bind fun _ =>
    unlessOmitted_sparing ho qualifiers

end

/-- Level by level, printing with more left out spares. -/
theorem Halves.levels_sparing {config config' : Config} (ho : Omits config config') (n : Nat) :
    (Halves.levels config n).AllAlike sparing (Halves.levels config' n) := by
  induction n with
  | zero => exact Halves.exhausted_alike (parallel_sparing ho) (throws_sparing _ _)
  | succ n ih =>
    exact Halves.next_alike (parallel_sparing ho) (fun _ => throws_sparing _ _) ih
      (function_sparing ho ih)

end MangledNames.Printing
