import MangledNames.Proofs.Run
import MangledNames.Printing.Scope
set_option autoImplicit false

/-!
Printing only adds pieces to a sheet, and what is withdrawn was added before: the course of sheets,
and what the ways to print do to them.
-/

namespace MangledNames.Printing

open Course

theorem totalLength_append (a b : List String) :
    Output.totalLength (a ++ b) = Output.totalLength a + Output.totalLength b := by
  induction a with
  | nil => simp [Output.totalLength]
  | cons piece a ih => simp [Output.totalLength,ih,Nat.add_assoc]

/-- No piece is empty, and the size counts the characters of all of them. -/
structure Sheet.Sound (sheet : Sheet) : Prop where
  pieces : ∀ piece ∈ sheet.output.chunks.toList, piece.isEmpty = false
  size : sheet.output.size = Output.totalLength sheet.output.chunks.toList
  size_le : sheet.output.size ≤ sheet.output.limit

/-- The second sheet has the text of the first and maybe more. -/
structure Sheet.Leads (before after : Sheet) : Prop where
  pieces : ∃ added, after.output.chunks.toList = before.output.chunks.toList ++ added ∧
    ∀ piece ∈ added, piece.isEmpty = false
  size : before.Sound → after.output.size = Output.totalLength after.output.chunks.toList ∧
    after.output.size ≤ after.output.limit
  limit : after.output.limit = before.output.limit
  visits : before.visits ≤ after.visits

theorem Sheet.Leads.sound {a b : Sheet} (h : a.Leads b) (ha : a.Sound) : b.Sound := by
  obtain ⟨added,hadded,hpieces⟩ := h.pieces
  refine ⟨?_,(h.size ha).1,(h.size ha).2⟩
  intro piece hpiece
  rw [hadded,List.mem_append] at hpiece
  rcases hpiece with hpiece | hpiece
  · exact ha.pieces piece hpiece
  · exact hpieces piece hpiece

theorem Sheet.Leads.refl (sheet : Sheet) : sheet.Leads sheet :=
  ⟨⟨[],by simp⟩,fun h => ⟨h.size,h.size_le⟩,rfl,Nat.le_refl _⟩

theorem Sheet.Leads.visited {sheet : Sheet} {visits : Nat} (h : sheet.visits ≤ visits) :
    sheet.Leads ⟨sheet.output,visits⟩ :=
  ⟨⟨[],by simp⟩,fun hs => ⟨hs.size,hs.size_le⟩,rfl,h⟩

theorem Sheet.Leads.trans {a b c : Sheet} (hab : a.Leads b) (hbc : b.Leads c) : a.Leads c := by
  obtain ⟨x,hx,hxs⟩ := hab.pieces
  obtain ⟨y,hy,hys⟩ := hbc.pieces
  refine ⟨⟨x ++ y,by simp [hx,hy],?_⟩,fun h => hbc.size (hab.sound h),
    hbc.limit.trans hab.limit,Nat.le_trans hab.visits hbc.visits⟩
  intro piece hpiece
  rcases List.mem_append.mp hpiece with h | h
  · exact hxs piece h
  · exact hys piece h

theorem Sheet.Leads.mark_le {a b : Sheet} (h : a.Leads b) : a.output.mark ≤ b.output.mark := by
  obtain ⟨x,hx,_⟩ := h.pieces
  have hsize := congrArg List.length hx
  simp at hsize
  simp only [Output.mark]
  omega

theorem totalLength_pos {pieces : List String} (hne : pieces ≠ [])
    (hpieces : ∀ piece ∈ pieces, piece.isEmpty = false) : 0 < Output.totalLength pieces := by
  cases pieces with
  | nil => exact absurd rfl hne
  | cons piece pieces =>
    have hpiece := hpieces piece (.head _)
    have hlength : piece.length ≠ 0 := fun h => by
      rw [String.length_eq_zero_iff] at h
      simp [h] at hpiece
    simp only [Output.totalLength]
    omega

/-- A sheet that leads to another has its text, or less than that. -/
theorem Sheet.Leads.grows {s t : Sheet} (hs : s.Sound) (h : s.Leads t) :
    t.output.chunks = s.output.chunks ∨ s.output.size < t.output.size := by
  obtain ⟨added,hadded,hpieces⟩ := h.pieces
  by_cases hnone : added = []
  · exact .inl (Array.toList_inj.mp (by simpa [hnone] using hadded))
  · have hlonger := totalLength_pos hnone hpieces
    have hsize := hs.size
    have hsize' := (h.size hs).1
    rw [hadded,totalLength_append] at hsize'
    exact .inr (by omega)

theorem Sheet.Leads.size_le {s t : Sheet} (hs : s.Sound) (h : s.Leads t) :
    s.output.size ≤ t.output.size := by
  obtain ⟨added,hadded,_⟩ := h.pieces
  have hsize := hs.size
  have hsize' := (h.size hs).1
  rw [hadded,totalLength_append] at hsize'
  omega

theorem Sheet.Leads.lt_of_mark {s t : Sheet} (hs : s.Sound) (h : s.Leads t)
    (hmark : t.output.mark ≠ s.output.mark) : s.output.size < t.output.size :=
  (h.grows hs).resolve_left fun hsame => hmark (congrArg Array.size hsame)

instance : Course Sheet where
  Sound := Sheet.Sound
  Leads := Sheet.Leads
  Fails := Fault.IsError
  progress sheet := sheet.output.mark
  refl := Sheet.Leads.refl
  trans := Sheet.Leads.trans
  sound := Sheet.Leads.sound
  mono := Sheet.Leads.mark_le

theorem writing_apply {α : Type} (action : Output.Writing α) (sheet : Sheet) :
    (liftM action : Printer α) sheet = match action sheet.output with
      | .ok a output => .ok a ⟨output,sheet.visits⟩
      | .error fault output => .error fault ⟨output,sheet.visits⟩ := rfl

theorem rollback_apply {before after : Sheet} (hb : before.Sound) (h : before.Leads after) :
    (liftM (Output.rollback before.output.mark) : Printer Unit) after =
      .ok () ⟨before.output,after.visits⟩ := by
  obtain ⟨added,hadded,_⟩ := h.pieces
  have hsize := (h.size hb).1
  have hlimit := h.limit
  have hmark : (before.output.mark : Int) ≤ after.output.mark := by exact_mod_cast h.mark_le
  have hpieces : before.output.chunks.toList.length = before.output.mark := by simp [Output.mark]
  have hkept : after.output.chunks.shrink before.output.mark = before.output.chunks := by
    apply Array.toList_inj.mp
    simp [hadded,← hpieces]
  have hcount : after.output.chunks.size - before.output.mark = added.length := by
    have := congrArg List.length hadded
    simp [Output.mark] at this ⊢
    omega
  have hwithdrawn : (after.output.chunks.extract before.output.mark
      after.output.chunks.size).toList = added := by
    rw [Array.toList_extract,hadded,List.extract_eq_take_drop,hcount,← hpieces]
    simp
  have hrollback : Output.rollback before.output.mark after.output = .ok () before.output := by
    unfold Output.rollback
    rw [if_pos ⟨by omega,hmark⟩]
    simp only [Int.toNat_natCast,hkept,hwithdrawn]
    rw [hsize,hadded,totalLength_append,Nat.add_sub_cancel,← hb.size]
    simp only [hlimit]
  rw [writing_apply,hrollback]

section
variable {α : Type}

theorem fail_prints {p : α → Prop} (error : DemangleError) : Runs 0 (fail error : Printer α) p :=
  Runs.throw ⟨_,rfl⟩

theorem ofExcept_prints {p : α → Prop} {found : Except DemangleError α}
    (h : ∀ a, found = .ok a → p a) : Runs 0 (ofExcept found) p := by
  cases found with
  | ok a => exact Runs.pure (h a rfl)
  | error error => exact fail_prints error

/-- Text is added as one piece, if it is not empty. -/
theorem write_apply (text : String) (sheet : Sheet) :
    write text sheet = if text.isEmpty then .ok () sheet
      else if sheet.output.size + text.length > sheet.output.limit then
        .error (.error (.outputTooLarge sheet.output.limit)) sheet
      else .ok () { sheet with output := { sheet.output with
        chunks := sheet.output.chunks.push text, size := sheet.output.size + text.length } } := by
  change writing (Output.write text) sheet = _
  by_cases htext : text.isEmpty = true
  · simp [writing,Output.write,htext]
  · by_cases hsize : sheet.output.size + text.length > sheet.output.limit
    · simp [writing,Output.write,htext,hsize]
    · simp [writing,Output.write,htext,hsize]

theorem write_ok {text : String} (htext : text.isEmpty = false) {s t : Sheet}
    (h : write text s = .ok () t) : t.output.mark = s.output.mark + 1 := by
  rw [write_apply,htext] at h
  simp only [Bool.false_eq_true,if_false] at h
  split at h
  · cases h
  · cases h
    simp [Output.mark]

theorem write_prints (text : String) : Runs 0 (write text) fun _ => True := by
  refine ⟨fun sheet hs => ?_⟩
  rw [write_apply]
  split
  · exact ⟨.refl sheet,Nat.zero_le _,trivial⟩
  · rename_i htext
    split
    · exact ⟨.refl sheet,_,rfl⟩
    · refine ⟨⟨⟨[text],by simp,by simpa using htext⟩,fun h => ⟨?_,?_⟩,rfl,Nat.le_refl _⟩,
        Nat.zero_le _,trivial⟩
      · simp [h.size,totalLength_append,Output.totalLength]
      · simp only at *
        omega

def Sheet.put (sheet : Sheet) (text : String) : Sheet :=
  { sheet with output := { sheet.output with
    chunks := sheet.output.chunks.push text, size := sheet.output.size + text.length } }

section
variable {text : String} {s t : Sheet}

theorem last_put (text : String) (s : Sheet) :
    (s.put text).output.last = text.toList.getLast? := by
  simp [Sheet.put,Output.last]

theorem write_put (htext : text.isEmpty = false)
    (hroom : s.output.size + text.length ≤ s.output.limit) :
    write text s = .ok () (s.put text) := by
  rw [write_apply,htext]
  simp only [Bool.false_eq_true,if_false]
  rw [if_neg (by omega)]
  rfl

theorem put_of_write (htext : text.isEmpty = false) (h : write text s = .ok () t) :
    s.output.size + text.length ≤ s.output.limit ∧ t = s.put text := by
  rw [write_apply,htext] at h
  simp only [Bool.false_eq_true,if_false] at h
  split at h
  · cases h
  · cases h
    exact ⟨by omega,rfl⟩

theorem leads_put (htext : text.isEmpty = false)
    (hroom : s.output.size + text.length ≤ s.output.limit) : s.Leads (s.put text) where
  pieces := ⟨[text],by simp [Sheet.put],by simpa using htext⟩
  size hs := ⟨by simp [Sheet.put,hs.size,totalLength_append,Output.totalLength],hroom⟩
  limit := rfl
  visits := Nat.le_refl _

end

theorem mark_bind {α : Type} (q : Nat → Printer α) (sheet : Sheet) :
    (mark >>= q) sheet = q sheet.output.mark sheet := rfl

theorem last_prints : Runs 0 last fun _ => True :=
  ⟨fun sheet _ => ⟨.refl sheet,Nat.zero_le _,trivial⟩⟩

theorem step_apply (config : Config) (sheet : Sheet) :
    step config sheet = if sheet.visits + 1 > config.outputSizeLimit then
        .error (.error (.outputTooLarge config.outputSizeLimit)) ⟨sheet.output,sheet.visits + 1⟩
      else .ok () ⟨sheet.output,sheet.visits + 1⟩ := rfl

/-- A step adds one to the count as long as the limit leaves room for it. -/
theorem step_ok_iff {config : Config} {s t : Sheet} : step config s = .ok () t ↔
    s.visits < config.outputSizeLimit ∧ t = ⟨s.output,s.visits + 1⟩ := by
  rw [step_apply]
  split
  · exact ⟨nofun,fun h => absurd h.1 (by omega)⟩
  · exact ⟨fun h => ⟨by omega,by cases h; rfl⟩,fun h => by rw [h.2]⟩

/-- Past the limit a step fails, and no other one does. -/
theorem step_error_iff {config : Config} {s t : Sheet} {fault : Fault} :
    step config s = .error fault t ↔ config.outputSizeLimit ≤ s.visits ∧
      fault = .error (.outputTooLarge config.outputSizeLimit) ∧ t = ⟨s.output,s.visits + 1⟩ := by
  rw [step_apply]
  split
  · exact ⟨fun h => ⟨by omega,by cases h; exact ⟨rfl,rfl⟩⟩,fun h => by rw [h.2.1,h.2.2]⟩
  · exact ⟨nofun,fun h => absurd h.1 (by omega)⟩

theorem step_ok {config : Config} {s t : Sheet} (h : step config s = .ok () t) :
    t.output = s.output := by
  rw [(step_ok_iff.mp h).2]

theorem step_prints (config : Config) : Runs 0 (step config) fun _ => True := by
  refine ⟨fun sheet hs => ?_⟩
  have hstep : sheet.Leads ⟨sheet.output,sheet.visits + 1⟩ :=
    ⟨⟨[],by simp⟩,fun h => ⟨h.size,h.size_le⟩,rfl,Nat.le_succ _⟩
  rw [step_apply]
  split
  · exact ⟨hstep,_,rfl⟩
  · exact ⟨hstep,Nat.zero_le _,trivial⟩

section
variable {print : α → Printer Unit} {item : α} {items : List α} {printed : Bool}

def separator (printed : Bool) : Printer Unit := if printed then write ", " else pure ()

theorem listFrom_cons (print : α → Printer Unit) (printed : Bool) (item : α) (items : List α) :
    listFrom print printed (item :: items) = (do
      let before ← mark
      separator printed
      let content ← mark
      print item
      if (← mark) = content then
        Output.rollback before
        listFrom print printed items
      else listFrom print true items) := by
  unfold separator
  rw [listFrom]
  cases printed <;> rfl

theorem listFrom_cons_ok {s u : Sheet} (h : listFrom print printed (item :: items) s = .ok () u) :
    ∃ s₁ s₂, separator printed s = .ok () s₁ ∧ print item s₁ = .ok () s₂ := by
  rw [listFrom_cons,mark_bind] at h
  obtain ⟨_,s₁,hseparator,h⟩ := bind_ok h
  rw [mark_bind] at h
  obtain ⟨_,s₂,hprint,_⟩ := bind_ok h
  exact ⟨s₁,s₂,hseparator,hprint⟩

/-- A list goes on from the sheet that its first item was printed on. -/
theorem listFrom_cons_run {s s₁ s₂ : Sheet} (hseparator : separator printed s = .ok () s₁)
    (hprint : print item s₁ = .ok () s₂) :
    listFrom print printed (item :: items) s =
      (if s₂.output.mark = s₁.output.mark then do
        Output.rollback s.output.mark
        listFrom print printed items
      else listFrom print true items) s₂ := by
  rw [listFrom_cons,mark_bind,bind_apply,hseparator]
  simp only [mark_bind]
  rw [bind_apply,hprint]
  simp only [mark_bind]

/-- An item that printed nothing goes with its separator. -/
theorem listFrom_cons_apply {s s₁ s₂ : Sheet} (hs : s.Sound)
    (hseparator : separator printed s = .ok () s₁) (hprint : print item s₁ = .ok () s₂)
    (hleads : s.Leads s₂) :
    listFrom print printed (item :: items) s =
      if s₂.output.mark = s₁.output.mark then listFrom print printed items ⟨s.output,s₂.visits⟩
      else listFrom print true items s₂ := by
  rw [listFrom_cons_run hseparator hprint]
  split
  · rw [bind_apply,rollback_apply hs hleads]
  · rfl

end

theorem listFrom_prints {print : α → Printer Unit} {items : List α}
    (h : ∀ item ∈ items, Runs 0 (print item) fun _ => True) (printed : Bool) :
    Runs 0 (listFrom print printed items) fun _ => True := by
  induction items generalizing printed with
  | nil => exact Runs.pure trivial
  | cons item items ih =>
    rw [List.forall_mem_cons] at h
    obtain ⟨hitem,hitems⟩ := h
    refine ⟨fun before hbefore => ?_⟩
    have next : ∀ (printed : Bool) (after : Sheet), before.Leads after → Ends
        (fun _ t => before.Leads t ∧ 0 ≤ t.output.mark - before.output.mark ∧ True)
        (fun f t => before.Leads t ∧ f.IsError) (listFrom print printed items after) :=
      fun printed after hafter => ((ih hitems printed).ends after (hafter.sound hbefore)).imp
        (fun _ t ht => ⟨hafter.trans ht.1,Nat.zero_le _,trivial⟩)
        fun _ _ ht => ⟨hafter.trans ht.1,ht.2⟩
    have content : ∀ start, before.Leads start → Ends
        (fun _ t => before.Leads t ∧ 0 ≤ t.output.mark - before.output.mark ∧ True)
        (fun f t => before.Leads t ∧ f.IsError) ((do
          let content ← mark
          print item
          if (← mark) = content then
            Output.rollback before.output.mark
            listFrom print printed items
          else listFrom print true items : Printer Unit) start) := by
      intro start hstart
      have hprint : Ends (fun _ t => before.Leads t) (fun f t => before.Leads t ∧ f.IsError)
          (print item start) :=
        (hitem.ends start (hstart.sound hbefore)).imp (fun _ _ ht => hstart.trans ht.1)
          fun _ _ ht => ⟨hstart.trans ht.1,ht.2⟩
      rw [mark_bind]
      refine Ends.bind hprint fun _ after hafter => ?_
      change Ends _ _
        ((if after.output.mark = start.output.mark then _ else _ : Printer Unit) after)
      by_cases hmark : after.output.mark = start.output.mark
      · rw [if_pos hmark,bind_apply,rollback_apply hbefore hafter]
        refine next printed ⟨before.output,after.visits⟩ ?_
        exact ⟨⟨[],by simp⟩,fun h => ⟨h.size,h.size_le⟩,rfl,hafter.visits⟩
      · rw [if_neg hmark]
        exact next true after hafter
    unfold listFrom
    rw [mark_bind]
    cases printed with
    | false => exact content before (.refl before)
    | true =>
      exact Ends.bind ((write_prints ", ").ends before hbefore) fun _ start hstart =>
        content start hstart.1

theorem list_prints {print : α → Printer Unit} {items : List α}
    (h : ∀ item ∈ items, Runs 0 (print item) fun _ => True) :
    Runs 0 (list print items) fun _ => True :=
  listFrom_prints h false

end

end MangledNames.Printing
