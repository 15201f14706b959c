import MangledNames.Proofs.Run
import MangledNames.Cursor
set_option autoImplicit false

/-!
Reading characters only goes on through one text: the course of cursors, and how far each way to
read gets on it.
-/

namespace MangledNames

namespace Cursor

/-- The second cursor lies in the same text as the first, at the same place or further on. -/
def Leads (before after : Cursor) : Prop :=
  ∃ read, after.passed = read.reverse ++ before.passed ∧ before.rest = read ++ after.rest

theorem Leads.refl (c : Cursor) : c.Leads c := ⟨[],by simp,by simp⟩

theorem Leads.trans {a b c : Cursor} (hab : a.Leads b) (hbc : b.Leads c) : a.Leads c := by
  obtain ⟨x,hx,hx'⟩ := hab
  obtain ⟨y,hy,hy'⟩ := hbc
  exact ⟨x ++ y,by simp [hx,hy],by simp [hx',hy']⟩

theorem Leads.position_le {a b : Cursor} (h : a.Leads b) : a.position ≤ b.position := by
  obtain ⟨x,hx,_⟩ := h
  simp [position,hx]

theorem Leads.length_eq {a b : Cursor} (h : a.Leads b) : a.length = b.length := by
  obtain ⟨x,hx,hx'⟩ := h
  simp [length,hx,hx']
  omega

theorem Leads.text_eq {a b : Cursor} (h : a.Leads b) : a.text = b.text := by
  obtain ⟨x,hx,hx'⟩ := h
  simp [text,hx,hx']

instance : Course Cursor where
  Sound _ := True
  Leads := Leads
  Fails := Fault.IsMalformed
  progress := position
  refl := Leads.refl
  trans := Leads.trans
  sound _ _ := trivial
  mono := Leads.position_le

theorem advance?_eq_some {n : Nat} {c after : Cursor} (h : advance? n c = some after) :
    ∃ read, read.length = n ∧ after.passed = read.reverse ++ c.passed ∧
      c.rest = read ++ after.rest := by
  fun_induction advance? n c with
  | case1 c =>
    cases h
    exact ⟨[],by simp⟩
  | case2 => cases h
  | case3 n passed x rest ih =>
    obtain ⟨read,hn,hp,hr⟩ := ih h
    simp only at hr
    exact ⟨x :: read,by simp [hn],by simp [hp],by simp [hr]⟩

theorem advance_eq (read : List Char) (passed rest : List Char) :
    advance read.length ⟨passed,read ++ rest⟩ = ⟨read.reverse ++ passed,rest⟩ := by
  induction read generalizing passed with
  | nil => rfl
  | cons x read ih => simp [advance,ih]

theorem skip?_eq_some {literal : List Char} {c after : Cursor} (h : skip? literal c = some after) :
    after.passed = literal.reverse ++ c.passed ∧ c.rest = literal ++ after.rest := by
  fun_induction skip? literal c with
  | case1 c =>
    cases h
    simp
  | case2 => cases h
  | case3 literal passed x rest ih =>
    obtain ⟨hp,hr⟩ := ih h
    exact ⟨by simp [hp],by simpa using hr⟩
  | case4 => cases h

theorem skip?_append (literal passed rest : List Char) :
    skip? literal ⟨passed,literal ++ rest⟩ = some ⟨literal.reverse ++ passed,rest⟩ := by
  induction literal generalizing passed with
  | nil => rfl
  | cons c literal ih => simp [skip?,ih]

theorem skipUntil?_leads {delimiter before found : List Char} {c after : Cursor}
    (h : skipUntil? delimiter before c = some (found,after)) : c.Leads after := by
  fun_induction skipUntil? delimiter before c with
  | case1 before passed rest after' hskip =>
    cases h
    obtain ⟨hp,hr⟩ := skip?_eq_some hskip
    exact ⟨delimiter,hp,hr⟩
  | case2 => cases h
  | case3 before passed x rest hskip ih =>
    exact Leads.trans ⟨[x],by simp,by simp⟩ (ih h)

theorem back_eq (read passed rest : List Char) :
    back read.length ⟨read ++ passed,rest⟩ = ⟨passed,read.reverse ++ rest⟩ := by
  induction read generalizing rest with
  | nil => rfl
  | cons x read ih => simp [back,ih]

theorem consume_apply (literal : String) (c : Cursor) :
    consume literal c = match skip? literal.toList c with
      | some after => .ok true after
      | none => .ok false c := by
  cases h : skip? literal.toList c <;> simp [consume,h]

theorem consume_runsTo (literal : String) :
    RunsTo (consume literal) fun d found => found = true → literal.toList.length ≤ d := by
  refine ⟨fun c _ => ?_⟩
  rw [consume_apply]
  split
  · rename_i after h
    obtain ⟨hp,hr⟩ := skip?_eq_some h
    exact ⟨⟨_,hp,hr⟩,by simp [Course.progress,position,hp]⟩
  · exact ⟨Leads.refl c,by simp⟩

theorem consume_runs (literal : String) : Runs 0 (consume literal) fun _ => True :=
  (consume_runsTo literal).imp fun _ _ _ => ⟨Nat.zero_le _,trivial⟩

theorem restore_apply {before after : Cursor} (h : before.Leads after) :
    restore before.position after = .ok ⟨⟩ before := by
  have hle := h.position_le
  obtain ⟨read,hp,hr⟩ := h
  have hback : back (after.position - before.position) after = before := by
    have hn : after.position - before.position = read.reverse.length := by simp [position,hp]
    rw [hn]
    obtain ⟨passed,rest⟩ := after
    obtain rfl : passed = read.reverse ++ before.passed := hp
    rw [back_eq,List.reverse_reverse,← hr]
  simp [restore,hle,hback]

theorem category_unexpectedAt (c : Cursor) (production : String) :
    (c.unexpectedAt production).category = .malformed := by
  unfold unexpectedAt
  split <;> rfl

theorem unexpected_runs {α : Type} {n : Nat} {p : α → Prop} (production : String) :
    Runs n (unexpected production : Scan α) p :=
  ⟨fun c _ => ⟨Leads.refl c,_,rfl,category_unexpectedAt c production⟩⟩

theorem fail_runs {α : Type} {n : Nat} {p : α → Prop} {error : DemangleError}
    (h : error.category = .malformed) : Runs n (Cursor.fail error : Scan α) p :=
  Runs.throw ⟨_,rfl,h⟩

theorem get_runs : Runs 0 (get : Scan Cursor) fun _ => True :=
  ⟨fun c _ => ⟨Leads.refl c,Nat.zero_le _,trivial⟩⟩

theorem peek_runs (distance : Nat) : Runs 0 (peek distance) fun _ => True :=
  ⟨fun c _ => ⟨Leads.refl c,Nat.zero_le _,trivial⟩⟩

theorem peekIs_runs (ofClass : Char → Bool) (distance : Nat) :
    Runs 0 (peekIs ofClass distance) fun _ => True :=
  ⟨fun c _ => ⟨Leads.refl c,Nat.zero_le _,trivial⟩⟩

theorem lookingAt_runs (literal : String) : Runs 0 (lookingAt literal) fun _ => True :=
  ⟨fun c _ => ⟨Leads.refl c,Nat.zero_le _,trivial⟩⟩

theorem atEnd_runs : Runs 0 atEnd fun _ => True :=
  ⟨fun c _ => ⟨Leads.refl c,Nat.zero_le _,trivial⟩⟩

theorem consumeAny_runsTo {n : Nat} {literals : List String}
    (h : ∀ literal ∈ literals, n ≤ literal.toList.length) :
    RunsTo (consumeAny literals) fun d found => found = true → n ≤ d := by
  induction literals with
  | nil => exact RunsTo.pure (by simp)
  | cons literal others ih =>
    unfold consumeAny
    refine RunsTo.bind (consume_runsTo literal) fun d found hd => RunsTo.ite (fun hfound => ?_)
      fun _ => ?_
    · have hlit := hd hfound
      have hn := h literal (by simp)
      exact RunsTo.pure fun _ => by omega
    · refine RunsTo.imp (ih fun other hother => h other (by simp [hother])) ?_
      exact fun e _ he hfound => Nat.le_trans (he hfound) (Nat.le_add_left e d)

theorem consumeAny_runs (literals : List String) : Runs 0 (consumeAny literals) fun _ => True :=
  (consumeAny_runsTo (n := 0) fun _ _ => Nat.zero_le _).imp fun _ _ _ => ⟨Nat.zero_le _,trivial⟩

theorem expect_runs {n : Nat} (literal production : String) (hn : n ≤ literal.toList.length) :
    Runs n (expect literal production) fun _ => True := by
  unfold expect
  refine RunsTo.bind (consume_runsTo literal) fun d found hd => ?_
  cases found with
  | false =>
    exact RunsTo.imp (unexpected_runs (n := n) production) fun e _ h =>
      ⟨Nat.le_trans h.1 (Nat.le_add_left e d),h.2⟩
  | true =>
    have hlit := hd rfl
    exact RunsTo.pure ⟨by omega,trivial⟩

theorem next_runs (production : String) : Runs 1 (next production) fun _ => True := by
  constructor
  rintro ⟨passed,_ | ⟨x,rest⟩⟩ _
  · exact ⟨Leads.refl _,_,rfl,rfl⟩
  · exact ⟨⟨[x],by simp,by simp⟩,by simp [Course.progress,position],trivial⟩

theorem takeChars_ends (n : Nat) (production : String) (c : Cursor) :
    Ends (fun found t => found.length = n ∧ t.passed = found.reverse ++ c.passed ∧
      c.rest = found ++ t.rest) (fun f t => c.Leads t ∧ f.IsMalformed)
      (takeChars n production c) := by
  cases h : advance? n c with
  | none =>
    have hc :
        takeChars n production c = .error (.error (.unexpectedEnd production c.length)) c := by
      simp [takeChars,h,Cursor.fail]
    rw [hc]
    exact ⟨Leads.refl c,_,rfl,rfl⟩
  | some after =>
    have hc : takeChars n production c = .ok (after.passed.take n).reverse after := by
      simp [takeChars,h]
    rw [hc]
    obtain ⟨read,hn,hp,hr⟩ := advance?_eq_some h
    have hfound : (after.passed.take n).reverse = read := by simp [hp,hn]
    rw [hfound]
    exact ⟨hn,hp,hr⟩

theorem takeChars_runs (n : Nat) (production : String) :
    Runs n (takeChars n production) fun found => found.length = n := by
  refine ⟨fun c _ => ?_⟩
  refine (takeChars_ends n production c).imp ?_ fun _ _ ht => ht
  rintro found t ⟨hn,hp,hr⟩
  exact ⟨⟨found,hp,hr⟩,by simp [Course.progress,position,hp,hn],hn⟩

theorem takeCode_runs (production : String) : Runs 2 (takeCode production) fun _ => True := by
  constructor
  rintro ⟨passed,_ | ⟨x,_ | ⟨y,rest⟩⟩⟩ _
  · exact ⟨Leads.refl _,_,rfl,rfl⟩
  · exact ⟨Leads.refl _,_,rfl,rfl⟩
  · exact ⟨⟨[x,y],by simp,by simp⟩,by simp [Course.progress,position]; omega,trivial⟩

theorem takeUntil_runs (delimiter production : String) :
    Runs 0 (takeUntil delimiter production) fun _ => True := by
  refine ⟨fun c _ => ?_⟩
  cases h : skipUntil? delimiter.toList [] c with
  | none =>
    have hc : takeUntil delimiter production c =
        .error (.error (.unexpectedEnd production c.length)) c := by
      simp [takeUntil,h,Cursor.fail]
    rw [hc]
    exact ⟨Leads.refl c,_,rfl,rfl⟩
  | some found =>
    obtain ⟨before,after⟩ := found
    have hc : takeUntil delimiter production c = .ok before after := by simp [takeUntil,h]
    rw [hc]
    have hl := skipUntil?_leads h
    exact ⟨hl,Nat.zero_le _,trivial⟩

/-- Reading what a class of characters allows. -/
theorem advance_takeWhile (ofClass : Char → Bool) (c : Cursor) :
    c.Leads (advance (c.rest.takeWhile ofClass).length c) ∧
      (advance (c.rest.takeWhile ofClass).length c).position =
        c.position + (c.rest.takeWhile ofClass).length := by
  obtain ⟨passed,rest⟩ := c
  have h := advance_eq (rest.takeWhile ofClass) passed (rest.dropWhile ofClass)
  rw [List.takeWhile_append_dropWhile] at h
  rw [h]
  exact ⟨⟨_,rfl,by simp⟩,by simp [position]; omega⟩

theorem digitValue_le {c : Char} (h : isDigit c = true) : digitValue c ≤ 9 := by
  simp only [digitValue,h,if_true]
  simp only [isDigit,Bool.and_eq_true,decide_eq_true_eq] at h
  have h9 : c.toNat ≤ '9'.toNat := h.2
  have : '9'.toNat = 57 := rfl
  have : '0'.toNat = 48 := rfl
  omega

theorem digits_runs (production : String) : Runs 1 (digits production) fun _ => True := by
  refine ⟨fun c hc => ?_⟩
  cases h : c.rest.takeWhile isDigit with
  | nil =>
    have he : digits production c = unexpected production c := by simp [digits,h]
    rw [he]
    exact (unexpected_runs production).ends c hc
  | cons x found =>
    have he : digits production c = .ok (x :: found) (advance (x :: found).length c) := by
      simp [digits,h]
    rw [he]
    have hl := advance_takeWhile isDigit c
    rw [h] at hl
    obtain ⟨hl,hp⟩ := hl
    refine ⟨hl,?_,trivial⟩
    change 1 ≤ (advance (x :: found).length c).position - c.position
    rw [hp]
    simp

theorem unsigned_runs (production : String) : Runs 1 (unsigned production) fun _ => True := by
  unfold unsigned
  refine get_runs.andThen fun c _ => (digits_runs production).first fun found _ => ?_
  refine Runs.ite (fun _ => ?_) fun _ => Runs.pure trivial
  exact (fail_runs (p := fun _ => False) rfl).failing

theorem number_runs (production : String) : Runs 1 (number production) fun _ => True := by
  unfold number
  exact (consume_runs "n").andThen fun _ _ => (unsigned_runs production).first fun _ _ =>
    Runs.pure trivial

/-! What stands in the text where something was read. -/

section
variable {c after : Cursor}

theorem skipUntil?_eq_some {delimiter before found : List Char}
    (h : skipUntil? delimiter before c = some (found,after)) :
    ∃ read, found = before.reverse ++ read ∧ c.rest = read ++ delimiter ++ after.rest := by
  fun_induction skipUntil? delimiter before c with
  | case1 before passed rest after' hskip =>
    cases h
    exact ⟨[],by simp,(skip?_eq_some hskip).2⟩
  | case2 => cases h
  | case3 before passed x rest hskip ih =>
    obtain ⟨read,hfound,hrest⟩ := ih h
    exact ⟨x :: read,by simp [hfound],by simpa using hrest⟩

theorem consume_ok {literal : String} {found : Bool} (h : consume literal c = .ok found after) :
    if found then c.rest = literal.toList ++ after.rest else after = c := by
  rw [consume_apply] at h
  split at h
  · rename_i hskip
    cases h
    exact (skip?_eq_some hskip).2
  · cases h
    rfl

theorem consume_of_prefix {literal : String} {found : Bool}
    (hnext : literal.toList.isPrefixOf c.rest = true) (h : consume literal c = .ok found after) :
    found = true := by
  obtain ⟨rest,hrest⟩ := List.isPrefixOf_iff_prefix.mp hnext
  obtain ⟨passed,ahead⟩ := c
  obtain rfl : literal.toList ++ rest = ahead := hrest
  rw [consume_apply,skip?_append] at h
  cases h
  rfl

theorem expect_ok {literal production : String} {u : Unit}
    (h : expect literal production c = .ok u after) :
    c.rest = literal.toList ++ after.rest := by
  obtain ⟨found,mid,hfound,hrest⟩ := bind_ok h
  have hread := consume_ok hfound
  cases found with
  | true =>
    cases hrest
    exact hread
  | false => cases hrest

theorem next_ok {production : String} {x : Char} (h : next production c = .ok x after) :
    c.rest = x :: after.rest := by
  obtain ⟨passed,_ | ⟨y,rest⟩⟩ := c
  · cases h
  · cases h
    rfl

theorem takeCode_ok {production : String} {code : Char × Char}
    (h : takeCode production c = .ok code after) :
    c.rest = code.1 :: code.2 :: after.rest := by
  obtain ⟨passed,_ | ⟨x,_ | ⟨y,rest⟩⟩⟩ := c
  · cases h
  · cases h
  · cases h
    rfl

theorem takeUntil_ok {delimiter production : String} {found : List Char}
    (h : takeUntil delimiter production c = .ok found after) :
    c.rest = found ++ delimiter.toList ++ after.rest := by
  cases hskip : skipUntil? delimiter.toList [] c with
  | none =>
    simp only [takeUntil,bind_apply,get_apply,hskip] at h
    cases h
  | some read =>
    simp only [takeUntil,bind_apply,get_apply,hskip,set_apply,pure_apply] at h
    cases h
    obtain ⟨before,hbefore,hrest⟩ := skipUntil?_eq_some hskip
    rw [hbefore]
    exact hrest

theorem lookingAt_ok {literal : String} {found : Bool} (h : lookingAt literal c = .ok found after) :
    after = c ∧ found = literal.toList.isPrefixOf c.rest := by
  cases h
  exact ⟨rfl,rfl⟩

theorem peekIs_ok {ofClass : Char → Bool} {distance : Nat} {found : Bool}
    (h : peekIs ofClass distance c = .ok found after) : after = c := by
  cases h
  rfl

theorem rest_of_takeWhile (ofClass : Char → Bool) :
    c.rest = c.rest.takeWhile ofClass ++ (advance (c.rest.takeWhile ofClass).length c).rest := by
  obtain ⟨passed,rest⟩ := c
  have h := advance_eq (rest.takeWhile ofClass) passed (rest.dropWhile ofClass)
  rw [List.takeWhile_append_dropWhile] at h
  rw [h]
  simp

theorem digits_ok {production : String} {found : List Char}
    (h : digits production c = .ok found after) :
    found ≠ [] ∧ (∀ x ∈ found, isDigit x = true) ∧ c.rest = found ++ after.rest := by
  cases htake : c.rest.takeWhile isDigit with
  | nil =>
    have hdigits : digits production c = unexpected production c := by simp [digits,htake]
    rw [hdigits] at h
    cases h
  | cons x read =>
    simp only [digits,bind_apply,get_apply,htake,set_apply,pure_apply] at h
    cases h
    rw [← htake]
    exact ⟨by simp [htake],List.all_eq_true.mp List.all_takeWhile,rest_of_takeWhile isDigit⟩

theorem unsigned_ok {production : String} {number : Nat}
    (h : unsigned production c = .ok number after) :
    ∃ found, found ≠ [] ∧ (∀ x ∈ found, isDigit x = true) ∧ number = numeral 10 found ∧
      c.rest = found ++ after.rest := by
  obtain ⟨c',mid,hget,hread⟩ := bind_ok h
  cases hget
  obtain ⟨found,last,hfound,hnumber⟩ := bind_ok hread
  obtain ⟨hne,hdigits,hrest⟩ := digits_ok hfound
  split at hnumber
  · cases hnumber
  · cases hnumber
    exact ⟨found,hne,hdigits,rfl,hrest⟩

end

end Cursor

end MangledNames
