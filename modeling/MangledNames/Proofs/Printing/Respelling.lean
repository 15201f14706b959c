import MangledNames.Proofs.Printing.ListTexts
set_option autoImplicit false

/-!
Printing the same in another spelling: what has to be known of two spellings for a whole run under
the second to follow from the run under the first.
-/

namespace MangledNames.Printing

open Likeness

/-- Texts of which the second is another spelling of the first, and no longer. They stay so whatever
is written behind both, and the brackets that are looked for at the end of one end the other too. -/
structure Respelling where
  Holds : List Char → List Char → Prop
  blank : Holds [] []
  append : ∀ {a b : List Char} (text : List Char), Holds a b → Holds (a ++ text) (b ++ text)
  length_le : ∀ {a b : List Char}, Holds a b → b.length ≤ a.length
  bracket : ∀ {a b : List Char}, Holds a b → (a.getLast? = some ']' ↔ b.getLast? = some ']')
  angle : ∀ {a b : List Char}, Holds a b → (a.getLast? = some '>' ↔ b.getLast? = some '>')

def tooLarge (limit : Nat) : Fault := .error (.outputTooLarge limit)

/-- Sheets with the same room, the same number of steps made, and one text in two spellings. -/
structure Sheet.Respelled (R : Respelling) (limit : Nat) (s s' : Sheet) : Prop where
  sound : s.Sound
  sound' : s'.Sound
  text : R.Holds s.output.text.toList s'.output.text.toList
  visits : s.visits = s'.visits
  room : s.output.limit = limit
  room' : s'.output.limit = limit

/-- Both runs got on to such sheets, and both or neither have written anything. -/
structure Sheet.Respells (R : Respelling) (limit : Nat) (s s' t t' : Sheet) : Prop where
  leads : s.Leads t
  leads' : s'.Leads t'
  respelled : t.Respelled R limit t'
  shows : t.output.mark = s.output.mark ↔ t'.output.mark = s'.output.mark

section
variable {R : Respelling} {limit : Nat} {s s' t t' u u' : Sheet}

theorem Sheet.Respelled.same (h : s.Respelled R limit s') : s.Respells R limit s' s s' :=
  ⟨.refl s,.refl s',h,by simp⟩

theorem Sheet.Respells.trans (hst : s.Respells R limit s' t t') (htu : t.Respells R limit t' u u') :
    s.Respells R limit s' u u' := by
  refine ⟨hst.leads.trans htu.leads,hst.leads'.trans htu.leads',htu.respelled,?_⟩
  have hshows := hst.shows
  have hshows' := htu.shows
  have hle := hst.leads.mark_le
  have hle' := hst.leads'.mark_le
  have hle₂ := htu.leads.mark_le
  have hle₂' := htu.leads'.mark_le
  omega

/-- What the second run comes to when the first comes to `result`: to a value alike on a sheet
respelled, or to the same fault, unless the first is out of room. -/
def Echoes {α β : Type} (R : Respelling) (limit : Nat) (s s' : Sheet) (v : α → β → Prop)
    (result : EStateM.Result Fault Sheet α) (result' : EStateM.Result Fault Sheet β) : Prop :=
  Ends (fun a t => ∃ b t', result' = .ok b t' ∧ v a b ∧ s.Respells R limit s' t t')
    (fun f _ => f = tooLarge limit ∨ ∃ t', result' = .error f t') result

section
variable {α β γ δ : Type} {v : α → β → Prop} {w : γ → δ → Prop} {m : Printer α} {m' : Printer β}
  {q : α → Printer γ} {r : β → Printer δ}

theorem Echoes.after {result : EStateM.Result Fault Sheet α}
    {result' : EStateM.Result Fault Sheet β} (hst : s.Respells R limit s' t t')
    (h : Echoes R limit t t' v result result') :
    Echoes R limit s s' v result result' := by
  refine Ends.imp h ?_ fun _ _ hfault => hfault
  rintro a u ⟨b,u',hrun,hab,htu⟩
  exact ⟨b,u',hrun,hab,hst.trans htu⟩

theorem Echoes.bind (h : Echoes R limit t t' v (m t) (m' t'))
    (hq : ∀ a b u u', v a b → t.Respells R limit t' u u' → Echoes R limit s s' w (q a u) (r b u')) :
    Echoes R limit s s' w ((m >>= q) t) ((m' >>= r) t') := by
  refine Ends.bind (Ends.imp h (fun _ _ hgood => hgood) fun f _ hfault => ?_) ?_
  · refine hfault.imp_right fun ⟨u',hrun⟩ => ⟨u',?_⟩
    rw [bind_apply,hrun]
  · rintro a u ⟨b,u',hrun,hab,htu⟩
    rw [bind_apply,hrun]
    exact hq a b u u' hab htu

/-- From sheets respelled the second run answers the first. -/
structure Respelling.Follows (R : Respelling) (limit : Nat) (v : α → β → Prop) (m : Printer α)
    (m' : Printer β) : Prop where
  results : ∀ s s', s.Respelled R limit s' → Echoes R limit s s' v (m s) (m' s')

end

def respelling (R : Respelling) (limit : Nat) : Likeness where
  Holds := R.Follows limit
  pure hv := ⟨fun _ s' hs => ⟨_,s',rfl,hv,hs.same⟩⟩
  bind hm hq := ⟨fun s s' hs => (hm.results s s' hs).bind fun a b t t' hab hst =>
    ((hq a b hab).results t t' hst.respelled).after hst⟩

theorem throws_respelling (fault : Fault) : (respelling R limit).Throws fault fault :=
  fun _ => ⟨fun _ s' _ => .inr ⟨s',rfl⟩⟩

def Puts (m : Printer Unit) (text : String) : Prop :=
  ∀ s, s.Sound →
    Ends (fun _ t => s.Leads t ∧ t.visits = s.visits ∧ t.output.text = s.output.text ++ text)
    (fun f _ => f = tooLarge s.output.limit) (m s)

theorem write_room {text : String} (hs : s.Sound)
    (hroom : s.output.size + text.length ≤ s.output.limit) :
    ∃ t, write text s = .ok () t ∧ s.Leads t ∧ t.visits = s.visits ∧
      t.output.text = s.output.text ++ text := by
  cases htext : text.isEmpty with
  | true =>
    refine ⟨s,?_,.refl s,rfl,?_⟩
    · rw [write_apply,if_pos htext]
    · rw [String.isEmpty_iff.mp htext,String.append_empty]
  | false =>
    have hrun := write_put htext hroom
    obtain ⟨hleads,_,hadded,rfl⟩ := Says.write text s hs () _ hrun
    exact ⟨_,hrun,hleads,rfl,hadded⟩

theorem puts_write (text : String) : Puts (write text) text := by
  intro s hs
  by_cases hroom : s.output.size + text.length ≤ s.output.limit
  · obtain ⟨t,hrun,hadded⟩ := write_room hs hroom
    rw [hrun]
    exact hadded
  · have htext : ¬text.isEmpty = true := by
      intro htext
      have hfull := hs.size_le
      rw [String.isEmpty_iff.mp htext] at hroom
      simp only [String.length_empty,Nat.add_zero] at hroom
      omega
    rw [write_apply,if_neg htext,if_pos (by omega)]
    rfl

theorem Puts.bind {m : Printer Unit} {n : Unit → Printer Unit} {text more : String}
    (h : Puts m text) (hn : Puts (n ()) more) : Puts (m >>= n) (text ++ more) := by
  intro s hs
  refine Ends.bind (h s hs) ?_
  rintro ⟨⟩ t ⟨hst,hvisits,htext⟩
  refine (hn t (hst.sound hs)).imp ?_ ?_
  · rintro _ u ⟨htu,hvisits',hmore⟩
    exact ⟨hst.trans htu,by omega,by rw [hmore,htext,String.append_assoc]⟩
  · rintro fault _ rfl
    rw [hst.limit]

theorem write_echoes (hs : s.Respelled R limit s') {m : Printer Unit} {text text' : String}
    (hm : Puts m text) (hempty : text = "" ↔ text' = "")
    (h : R.Holds (s.output.text ++ text).toList (s'.output.text ++ text').toList) :
    Echoes R limit s s' Eq (m s) (write text' s') := by
  refine (hm s hs.sound).imp ?_ fun fault _ hfault => .inl (by rw [hfault,hs.room])
  rintro ⟨⟩ t ⟨hleads,hvisits,htext⟩
  have hsound := hleads.sound hs.sound
  have hroom : s'.output.size + text'.length ≤ s'.output.limit := by
    have hlength := R.length_le h
    have hsize := congrArg String.length htext
    have hfull := hsound.size_le
    have hlimit := hleads.limit
    have hsame := hs.room
    have hsame' := hs.room'
    rw [hsound.length_text] at hsize
    simp only [String.length_toList,String.length_append] at hlength hsize
    have hsize' := hs.sound'.length_text
    omega
  obtain ⟨t',hrun,hleads',hvisits',htext'⟩ := write_room hs.sound' hroom
  refine ⟨(),t',hrun,rfl,hleads,hleads',⟨hsound,hleads'.sound hs.sound',?_,?_,?_,?_⟩,?_⟩
  · rw [htext,htext']
    exact h
  · rw [hvisits,hvisits',hs.visits]
  · rw [hleads.limit,hs.room]
  · rw [hleads'.limit,hs.room']
  · rw [hleads.mark_eq_iff hs.sound htext,hleads'.mark_eq_iff hs.sound' htext',hempty]

theorem write_respelled {text text' : String} (hempty : text = "" ↔ text' = "")
    (h : ∀ a b, R.Holds a b → R.Holds (a ++ text.toList) (b ++ text'.toList)) :
    (respelling R limit).Alike (write text) (write text') := by
  refine ⟨fun s s' hs => write_echoes hs (puts_write text) hempty ?_⟩
  rw [String.toList_append,String.toList_append]
  exact h _ _ hs.text

theorem write_same (text : String) : (respelling R limit).Alike (write text) (write text) :=
  write_respelled .rfl fun _ _ h => R.append text.toList h

theorem step_respelled {config config' : Config} (hlimit : config.outputSizeLimit = limit)
    (hlimit' : config'.outputSizeLimit = limit) :
    (respelling R limit).Alike (step config) (step config') := by
  refine ⟨fun s s' hs => ?_⟩
  rw [step_apply,step_apply,hlimit,hlimit',← hs.visits]
  by_cases hfull : s.visits + 1 > limit
  · rw [if_pos hfull,if_pos hfull]
    exact .inl rfl
  · rw [if_neg hfull,if_neg hfull]
    have further : ∀ sheet : Sheet, sheet.visits ≤ s.visits + 1 →
        sheet.Leads ⟨sheet.output,s.visits + 1⟩ := fun sheet hvisits => .visited hvisits
    have hleads := further s (Nat.le_succ _)
    have hleads' := further s' (hs.visits ▸ Nat.le_succ _)
    exact ⟨(),_,rfl,rfl,hleads,hleads',⟨hleads.sound hs.sound,hleads'.sound hs.sound',hs.text,rfl,
      hs.room,hs.room'⟩,by simp⟩

section
variable {α β : Type} {print : α → Printer Unit} {print' : β → Printer Unit}

theorem separator_respelled (printed : Bool) :
    (respelling R limit).Alike (separator printed) (separator printed) :=
  Holds.ite (fun _ => write_same ", ") fun _ => Holds.pure rfl

/-- An item that shows nothing is withdrawn in both spellings. -/
theorem list_respelled {items : List α} {items' : List β}
    (h : List.Forall₂ (fun a b => (respelling R limit).Alike (print a) (print' b)) items items') :
    (respelling R limit).Alike (list print items) (list print' items') := by
  have from_here : ∀ printed, (respelling R limit).Alike (listFrom print printed items)
      (listFrom print' printed items') := by
    induction h with
    | nil => exact fun _ => Holds.pure rfl
    | cons hitem _ ih =>
      refine fun printed => ⟨fun s s' hs => ?_⟩
      rw [listFrom_cons,listFrom_cons,mark_bind,mark_bind]
      refine ((separator_respelled printed).results s s' hs).bind fun _ _ s₁ s₁' _ hfirst => ?_
      rw [mark_bind,mark_bind]
      refine (hitem.results s₁ s₁' hfirst.respelled).bind fun _ _ s₂ s₂' _ hsecond => ?_
      have hboth := hfirst.trans hsecond
      have hvisits := hboth.respelled.visits
      rw [mark_bind,mark_bind]
      by_cases hmark : s₂.output.mark = s₁.output.mark
      · have back : s.Leads ⟨s.output,s₂.visits⟩ := .visited hboth.leads.visits
        have back' : s'.Leads ⟨s'.output,s₂'.visits⟩ := .visited hboth.leads'.visits
        have hback : Sheet.Respells R limit s s' ⟨s.output,s₂.visits⟩ ⟨s'.output,s₂'.visits⟩ :=
          ⟨back,back',⟨back.sound hs.sound,back'.sound hs.sound',hs.text,hvisits,hs.room,hs.room'⟩,
            by simp⟩
        rw [if_pos hmark,if_pos (hsecond.shows.mp hmark),bind_apply,bind_apply,
          rollback_apply hs.sound hboth.leads,rollback_apply hs.sound' hboth.leads']
        exact ((ih printed).results _ _ hback.respelled).after hback
      · rw [if_neg hmark,if_neg fun hmark' => hmark (hsecond.shows.mpr hmark')]
        exact ((ih true).results s₂ s₂' hboth.respelled).after hboth
  exact from_here false

end

theorem Sheet.Sound.last_text {sheet : Sheet} (hs : sheet.Sound) :
    sheet.output.last = sheet.output.text.toList.getLast? := by
  have hlast :
      sheet.output.last = sheet.output.chunks.toList.getLast?.bind (·.toList.getLast?) := by
    simp [Output.last]
  have hpieces := hs.pieces
  rw [hlast,Output.text]
  rcases List.eq_nil_or_concat sheet.output.chunks.toList with hnone | ⟨before,piece,hsome⟩
  · rw [hnone]
    rfl
  · rw [hsome] at hpieces ⊢
    have hpiece : piece.toList ≠ [] := by
      have hne := hpieces piece (by simp)
      simpa [String.isEmpty_iff] using hne
    obtain ⟨c,hc⟩ := Option.isSome_iff_exists.mp (List.getLast?_isSome.mpr hpiece)
    simp [hc]

/-- What is asked of the end of a sheet has the same answer in both spellings. -/
theorem last_respelled {α β : Type} {v : α → β → Prop} {mark : Char} {q : Bool → Printer α}
    {r : Bool → Printer β}
    (hmark : ∀ {a b : List Char}, R.Holds a b → (a.getLast? = some mark ↔ b.getLast? = some mark))
    (h : ∀ found, (respelling R limit).Holds v (q found) (r found)) :
    (respelling R limit).Holds v (last >>= fun c => q (c == some mark))
      (last >>= fun c => r (c == some mark)) := by
  refine ⟨fun s s' hs => ?_⟩
  have hsame : (s'.output.last == some mark) = (s.output.last == some mark) := by
    rw [Bool.eq_iff_iff,beq_iff_eq,beq_iff_eq,hs.sound.last_text,hs.sound'.last_text]
    exact (hmark hs.text).symm
  change Echoes R limit s s' v (q (s.output.last == some mark) s)
    (r (s'.output.last == some mark) s')
  rw [hsame]
  exact (h _).results s s' hs

end

theorem cased_eq_empty {config : Config} {suffix : String} : cased config suffix = "" ↔
    suffix = "" := by
  unfold cased
  cases config.literalCase with
  | lower => exact .rfl
  | upper => exact String.map_eq_empty

theorem expandedText_ne_empty (name : StandardName) (spaced : Bool) :
    name.expandedText spaced ≠ "" := by
  cases name <;> cases spaced <;> decide

def closeAngle (config : Config) : Printer Unit := do
  if config.closingAngleSpace && (← last) == some '>' then write " "
  write ">"

/-- Brackets close alike where both configurations leave them adjacent, and
where both set them apart. -/
theorem closeAngle_respelled {R : Respelling} {limit : Nat} {config config' : Config}
    (h : config.closingAngleSpace = config'.closingAngleSpace) :
    (respelling R limit).Alike (closeAngle config) (closeAngle config') := by
  have hspace :
      closeAngle config' = closeAngle
      { config with closingAngleSpace := config'.closingAngleSpace } :=
    rfl
  rw [hspace,← h]
  exact last_respelled
    (q := fun found => do
      if config.closingAngleSpace && found then write " "
      write ">")
    (r := fun found => do
      if config.closingAngleSpace && found then write " "
      write ">")
    R.angle fun _ => Holds.guard (write_same " ") (write_same ">")

/-- Two configurations of which one spells what the other spells, and nothing else is different. -/
structure Respelling.Relates (R : Respelling) (config config' : Config) : Prop where
  omitParameterList : config.omitParameterList = config'.omitParameterList
  omitReturnType : config.omitReturnType = config'.omitReturnType
  recursionLimit : config.recursionLimit = config'.recursionLimit
  outputSizeLimit : config.outputSizeLimit = config'.outputSizeLimit
  suffixed : ∀ suffix a b, R.Holds a b →
    R.Holds (a ++ (cased config suffix).toList) (b ++ (cased config' suffix).toList)
  expanded : ∀ (name : StandardName) a b, R.Holds a b →
    R.Holds (a ++ (name.expandedText config.closingAngleSpace).toList)
      (b ++ (name.expandedText config'.closingAngleSpace).toList)
  closing : (respelling R config.outputSizeLimit).Alike (closeAngle config) (closeAngle config')

section
variable {R : Respelling} {config config' : Config} (h : R.Relates config config')
include h

theorem parallel_respelled : Parallel (respelling R config.outputSizeLimit) config config' where
  broken _ := throws_respelling _
  step := step_respelled rfl h.outputSizeLimit.symm
  write := write_same
  suffixed value suffix := by
    refine write_respelled ?_ fun a b hab => ?_
    · rw [String.append_eq_empty_iff,String.append_eq_empty_iff,cased_eq_empty,cased_eq_empty]
    · rw [String.toList_append,String.toList_append,← List.append_assoc,← List.append_assoc]
      exact h.suffixed suffix _ _ (R.append value.toList hab)
  expanded name :=
    write_respelled (iff_of_false (expandedText_ne_empty _ _) (expandedText_ne_empty _ _))
    (h.expanded name)
  closing := h.closing
  bound {m m'} hrest := last_respelled
    (q := fun found => do
      unless found do write " "
      write "["
      m)
    (r := fun found => do
      unless found do write " "
      write "["
      m')
    R.bracket fun _ => Holds.guardNot (write_same " ") ((write_same "[").bind fun _ => hrest)
  list := list_respelled

/-- Level by level, what is printed is respelled. -/
theorem Halves.levels_respelled (n : Nat) :
    (Halves.levels config n).AllAlike (respelling R config.outputSizeLimit)
    (Halves.levels config' n) := by
  refine Halves.levels_alike (parallel_respelled h) ?_ (fun _ => throws_respelling _)
    h.omitReturnType h.omitParameterList n
  rw [h.recursionLimit]
  exact throws_respelling _

/-- A text is respelled, and nothing ends otherwise than before unless there was no room. -/
theorem render_respelled (node : Node) :
    (∀ text, node.render config = .ok text →
      ∃ text', node.render config' = .ok text' ∧ R.Holds text.toList text'.toList) ∧
    ∀ fault, node.render config = .error fault →
      fault = tooLarge config.outputSizeLimit ∨ node.render config' = .error fault := by
  have hblank : (Sheet.blank config).Respelled R config.outputSizeLimit (Sheet.blank config') :=
    ⟨.blank config,.blank config',R.blank,rfl,rfl,h.outputSizeLimit.symm⟩
  have hlevels : levelsOf config = levelsOf config' := congrArg (2 * ·) h.recursionLimit
  have hprint := (Halves.levels_respelled h (levelsOf config) {} node).print.results _ _ hblank
  unfold Node.render
  rw [← hlevels]
  cases hrun : (Halves.levels config (levelsOf config)).print {} node (.blank config) with
  | ok _ sheet =>
    rw [hrun] at hprint
    obtain ⟨_,sheet',hrun',_,hst⟩ := hprint
    rw [hrun']
    refine ⟨?_,nofun⟩
    rintro _ ⟨⟩
    exact ⟨_,rfl,hst.respelled.text⟩
  | error fault sheet =>
    rw [hrun] at hprint
    refine ⟨nofun,?_⟩
    rintro _ ⟨⟩
    refine hprint.imp_right fun ⟨sheet',hrun'⟩ => ?_
    rw [hrun']

end

end MangledNames.Printing
