import MangledNames.Proofs.Grammar.Horizon
set_option autoImplicit false

/-!
The words of the grammar read the same whatever stands behind the text, as long as they do not go
astray into it.
-/

namespace MangledNames

namespace Cursor

def followedBy (tail : List Char) (c : Cursor) : Cursor := ⟨c.passed,c.rest ++ tail⟩

theorem skip?_eq_some_iff {literal : List Char} {c after : Cursor} :
    skip? literal c = some after ↔
      after.passed = literal.reverse ++ c.passed ∧ c.rest = literal ++ after.rest := by
  refine ⟨skip?_eq_some,?_⟩
  fun_induction skip? literal c with
  | case1 c =>
    rintro ⟨hp,hr⟩
    obtain ⟨passed,rest⟩ := c
    obtain ⟨passed',rest'⟩ := after
    simp_all
  | case2 => simp
  | case3 literal passed x rest ih =>
    rintro ⟨hp,hr⟩
    exact ih ⟨by simpa using hp,by simpa using hr⟩
  | case4 l literal passed x rest h =>
    rintro ⟨_,hr⟩
    simp only [List.cons_append,List.cons.injEq] at hr
    exact absurd hr.1.symm h

theorem advance?_eq_none {n : Nat} {c : Cursor} (h : advance? n c = none) : c.rest.length < n := by
  fun_induction advance? n c with
  | case1 => cases h
  | case2 => simp
  | case3 n passed x rest ih => simpa using ih h

section
variable {tail : List Char} {c after : Cursor}

theorem skip?_followedBy {literal : List Char} (h : skip? literal c = some after) :
    skip? literal (c.followedBy tail) = some (after.followedBy tail) := by
  obtain ⟨hp,hr⟩ := skip?_eq_some h
  exact skip?_eq_some_iff.mpr ⟨hp,by simp [followedBy,hr]⟩

/-- A literal that begins in the text and ends in the tail. -/
theorem crosses {literal more rest : List Char} (h : rest ++ tail = literal ++ more)
    (hnot : ¬literal <+: rest) :
    more.length < tail.length ∧ ∃ x ∈ literal, tail.head? = some x := by
  rcases List.append_eq_append_iff.mp h with ⟨front,rfl,rfl⟩ | ⟨back,rfl,rfl⟩
  · cases front with
    | nil => exact absurd (by simp) hnot
    | cons x front =>
      exact ⟨by simp only [List.length_append,List.length_cons]; omega,x,by simp,rfl⟩
  · exact absurd (List.prefix_append _ _) hnot

theorem skip?_crosses {literal : List Char} (hnone : skip? literal c = none)
    (h : skip? literal (c.followedBy tail) = some after) :
    after.rest.length < tail.length ∧ ∃ x ∈ literal, tail.head? = some x := by
  refine crosses (skip?_eq_some h).2 ?_
  rintro ⟨rest,hrest⟩
  have hsome : skip? literal c = some ⟨literal.reverse ++ c.passed,rest⟩ :=
    skip?_eq_some_iff.mpr ⟨rfl,hrest.symm⟩
  rw [hnone] at hsome
  cases hsome

theorem advance?_followedBy {n : Nat} (h : advance? n c = some after) :
    advance? n (c.followedBy tail) = some (after.followedBy tail) := by
  fun_induction advance? n c with
  | case1 c =>
    cases h
    rfl
  | case2 => cases h
  | case3 n passed x rest ih => exact ih h

theorem skipUntil?_followedBy {delimiter before found : List Char}
    (h : skipUntil? delimiter before c = some (found,after)) (hdelimiter : delimiter.length ≤ 1) :
    skipUntil? delimiter before (c.followedBy tail) = some (found,after.followedBy tail) := by
  fun_induction skipUntil? delimiter before c with
  | case1 before passed rest after' hskip =>
    cases h
    have hs : skip? delimiter (followedBy tail ⟨passed,rest⟩) = some (followedBy tail _) :=
      skip?_followedBy hskip
    unfold skipUntil?
    simp only [followedBy] at hs ⊢
    simp [hs]
  | case2 => cases h
  | case3 before passed x rest hskip ih =>
    have hs : skip? delimiter (followedBy tail ⟨passed,x :: rest⟩) = none := by
      cases hwide : skip? delimiter (followedBy tail ⟨passed,x :: rest⟩) with
      | none => rfl
      | some wide =>
        have hcross := (skip?_crosses hskip hwide).1
        have hr := congrArg List.length (skip?_eq_some hwide).2
        simp only [followedBy,List.length_append,List.length_cons] at hr
        omega
    have hrec := ih h
    rw [skipUntil?.eq_def]
    simp only [followedBy,List.cons_append] at hs hrec ⊢
    simp only [hs]
    exact hrec

theorem skipUntil?_length {delimiter before found : List Char}
    (h : skipUntil? delimiter before c = some (found,after)) :
    after.rest.length + delimiter.length ≤ c.rest.length := by
  fun_induction skipUntil? delimiter before c with
  | case1 before passed rest after' hskip =>
    cases h
    have hr := congrArg List.length (skip?_eq_some hskip).2
    simp only [List.length_append] at hr ⊢
    omega
  | case2 => cases h
  | case3 before passed x rest hskip ih =>
    have hle := ih h
    simp only [List.length_cons] at hle ⊢
    omega

theorem skipUntil?_crosses {delimiter before found : List Char} (hdelimiter : delimiter ≠ [])
    (hnone : skipUntil? delimiter before c = none)
    (h : skipUntil? delimiter before (c.followedBy tail) = some (found,after)) :
    after.rest.length < tail.length := by
  have hpos := List.length_pos_iff.mpr hdelimiter
  fun_induction skipUntil? delimiter before c with
  | case1 => cases hnone
  | case2 before passed hskip =>
    have hle := skipUntil?_length h
    simp only [followedBy,List.nil_append] at hle
    omega
  | case3 before passed x rest hskip ih =>
    rw [skipUntil?.eq_def] at h
    cases hwide : skip? delimiter (followedBy tail ⟨passed,x :: rest⟩) with
    | some wide =>
      simp only [followedBy,List.cons_append] at h hwide
      simp only [hwide,Option.some.injEq,Prod.mk.injEq] at h
      rw [← h.2]
      exact (skip?_crosses hskip hwide).1
    | none =>
      simp only [followedBy,List.cons_append] at h hwide
      simp only [hwide] at h
      exact ih hnone h

end

end Cursor

/-- Whether a character stands behind symbols, and continues none. -/
def isStop (c : Char) : Bool := c == ' ' || c == '.'

/-- Somewhere levels of qualifiers are spelled, so that a trial has to tell which ones. -/
def SpellsLevels (text : List Char) : Prop :=
  ∃ front c rest, text = front ++ 's' :: 'r' :: c :: rest ∧ isDigit c = true

theorem Cursor.spellsLevels {c : Cursor} (hpassed : ∃ passed, c.passed = 'r' :: 's' :: passed)
    (hdigit : c.rest.head?.any isDigit = true) : SpellsLevels c.text := by
  obtain ⟨passed,hpassed⟩ := hpassed
  cases hrest : c.rest with
  | nil => simp [hrest] at hdigit
  | cons x rest =>
    exact ⟨passed.reverse,x,rest,by simp [Cursor.text,hpassed,hrest],by simpa [hrest] using hdigit⟩

/-- A text and the tail behind it. The tail is arbitrary, and then only runs that do not go astray
into it are of interest, or it starts with a stop and the text needs no trials. -/
structure Outlook where
  text : List Char
  tail : List Char
  recursionLimit : Nat
  loose : Prop
  calm : loose ∨ tail.head?.any isStop = true ∧ ¬SpellsLevels text

namespace Outlook

variable (v : Outlook)

theorem loose_of_head {x : Char} (h : v.tail.head? = some x) (hx : isStop x = false) : v.loose := by
  rcases v.calm with hloose | ⟨hstop,_⟩
  · exact hloose
  · simp [h,hx] at hstop

theorem loose_of_mem {literal : List Char} (h : literal.any isStop = false) {x : Char}
    (hx : x ∈ literal) (hhead : v.tail.head? = some x) : v.loose :=
  v.loose_of_head hhead (Bool.not_eq_true _ ▸ List.any_eq_false.mp h x hx)

def scans : Horizon Cursor where
  rest := Cursor.rest
  tail := v.tail
  extend := Cursor.followedBy v.tail
  Onward := Cursor.Leads
  Within c := c.text = v.text
  loose := v.loose
  rest_extend _ := rfl
  refl := Cursor.Leads.refl
  trans := Cursor.Leads.trans
  shorter := by
    rintro s t ⟨read,_,hrest⟩
    simp [hrest]
  within h hs := h.text_eq.symm.trans hs

end Outlook

namespace Cursor

section
variable {v : Outlook} {α β : Type}

theorem distance_eq {c d : Cursor} (h : c.Leads d) :
    v.scans.distance c d = d.position - c.position := by
  obtain ⟨read,hp,hr⟩ := h
  simp [Horizon.distance,Outlook.scans,position,hp,hr]

theorem moves_of_runsTo {m : Scan α} {post : Nat → α → Prop} (h : RunsTo m post) :
    v.scans.Moves m post := fun c => by
  refine (h.ends c trivial).imp ?_ fun _ _ _ => trivial
  rintro a d ⟨hcd,hpost⟩
  exact ⟨hcd,by rwa [distance_eq hcd]⟩

theorem moves_of_runs {n : Nat} {m : Scan α} {p : α → Prop} (h : Runs n m p) :
    v.scans.Moves m fun d _ => n ≤ d := fun c =>
  (moves_of_runsTo h c).imp (fun _ _ ht => ⟨ht.1,ht.2.1⟩) fun _ _ ht => ht

theorem get_sees {q : Cursor → Scan α} {post : Nat → α → Prop}
    (hsame : ∀ c, q (c.followedBy v.tail) = q c) (hq : ∀ c, v.scans.SeesTo (q c) post) :
    v.scans.SeesTo (get >>= q) post := by
  refine ⟨fun c => (hq c).moves c,fun c hc _ => ?_⟩
  rw [bind_apply,bind_apply,get_apply,get_apply]
  change v.scans.Agrees (q (c.followedBy v.tail) _) _
  rw [hsame]
  exact (hq c).agrees c hc trivial

theorem fail_sees {e : DemangleError} {post : Nat → α → Prop} :
    v.scans.SeesTo (Cursor.fail e : Scan α) post := .throw

theorem consume_sees (literal : String) (hliteral : literal.toList.any isStop = false) :
    v.scans.SeesTo (consume literal) fun d found => found = true → literal.toList.length ≤ d := by
  refine ⟨moves_of_runsTo (consume_runsTo literal),fun c _ _ => ?_⟩
  rw [consume_apply,consume_apply]
  cases hnarrow : skip? literal.toList c with
  | some after =>
    have hwide : skip? literal.toList (v.scans.extend c) = some (after.followedBy v.tail) :=
      skip?_followedBy hnarrow
    rw [hwide]
    exact .inl ⟨rfl,rfl⟩
  | none =>
    cases hwide : skip? literal.toList (v.scans.extend c) with
    | none => exact .inl ⟨rfl,rfl⟩
    | some after =>
      obtain ⟨hastray,x,hx,hhead⟩ := skip?_crosses hnarrow hwide
      exact .inr ⟨v.loose_of_mem hliteral hx hhead,hastray⟩

theorem consumeAny_sees {n : Nat} {literals : List String}
    (h : ∀ literal ∈ literals, n ≤ literal.toList.length ∧ literal.toList.any isStop = false) :
    v.scans.SeesTo (consumeAny literals) fun d found => found = true → n ≤ d := by
  induction literals with
  | nil => exact .pure (by simp)
  | cons literal others ih =>
    obtain ⟨hn,hstop⟩ := h literal (by simp)
    refine (consume_sees literal hstop).bind fun d found hd => .ite (fun hfound => ?_) fun _ => ?_
    · have hlit := hd hfound
      exact .pure fun _ => by omega
    · refine (ih fun other hother => h other (by simp [hother])).imp fun e _ he hfound => ?_
      have hn := he hfound
      omega

theorem expect_sees (literal production : String) :
    v.scans.Sees literal.toList.length (expect literal production) := by
  have hmoves := moves_of_runs (v := v) (expect_runs literal production (Nat.le_refl _))
  refine ⟨hmoves,fun c _ _ => ?_⟩
  by_cases hlength : c.rest.length < literal.toList.length
  · exact Horizon.agrees_of_moves hmoves hlength
  · simp only [expect,bind_apply,consume_apply]
    cases hnarrow : skip? literal.toList c with
    | some after =>
      have hwide : skip? literal.toList (v.scans.extend c) = some (after.followedBy v.tail) :=
        skip?_followedBy hnarrow
      rw [hwide]
      exact .inl ⟨rfl,rfl⟩
    | none =>
      cases hwide : skip? literal.toList (v.scans.extend c) with
      | none => trivial
      | some after =>
        have hastray := (skip?_crosses hnarrow hwide).1
        have hr := congrArg List.length (skip?_eq_some hwide).2
        have hrest : (v.scans.extend c).rest = c.rest ++ v.tail := rfl
        simp only [hrest,List.length_append] at hr
        omega

theorem next_sees (production : String) : v.scans.Sees 1 (next production) := by
  have hmoves := moves_of_runs (v := v) (next_runs production)
  refine ⟨hmoves,fun c _ _ => ?_⟩
  obtain ⟨passed,_ | ⟨x,rest⟩⟩ := c
  · exact Horizon.agrees_of_moves hmoves (by simp [Outlook.scans])
  · exact .inl ⟨rfl,rfl⟩

theorem takeCode_sees (production : String) : v.scans.Sees 2 (takeCode production) := by
  have hmoves := moves_of_runs (v := v) (takeCode_runs production)
  refine ⟨hmoves,fun c _ _ => ?_⟩
  obtain ⟨passed,_ | ⟨x,_ | ⟨y,rest⟩⟩⟩ := c
  · exact Horizon.agrees_of_moves hmoves (by simp [Outlook.scans])
  · exact Horizon.agrees_of_moves hmoves (by simp [Outlook.scans])
  · exact .inl ⟨rfl,rfl⟩

theorem takeChars_sees (n : Nat) (production : String) :
    v.scans.Sees n (takeChars n production) := by
  have hmoves := moves_of_runs (v := v) (takeChars_runs n production)
  refine ⟨hmoves,fun c _ _ => ?_⟩
  cases hnarrow : advance? n c with
  | none => exact Horizon.agrees_of_moves hmoves (advance?_eq_none hnarrow)
  | some after =>
    have hwide : advance? n (v.scans.extend c) = some (after.followedBy v.tail) :=
      advance?_followedBy hnarrow
    simp only [takeChars,bind_apply,get_apply,hnarrow,hwide]
    exact .inl ⟨rfl,rfl⟩

/-- A delimiter of one character does not begin in the text and end in the tail. -/
theorem takeUntil_sees (delimiter production : String) (h : delimiter.toList.length = 1) :
    v.scans.Sees 0 (takeUntil delimiter production) := by
  have hmoves := moves_of_runs (v := v) (takeUntil_runs delimiter production)
  refine ⟨hmoves,fun c _ _ => ?_⟩
  simp only [takeUntil,bind_apply,get_apply]
  cases hnarrow : skipUntil? delimiter.toList [] c with
  | some found =>
    obtain ⟨before,after⟩ := found
    have hwide : skipUntil? delimiter.toList [] (v.scans.extend c) =
        some (before,after.followedBy v.tail) := skipUntil?_followedBy hnarrow (by omega)
    rw [hwide]
    exact .inl ⟨rfl,rfl⟩
  | none =>
    cases hwide : skipUntil? delimiter.toList [] (v.scans.extend c) with
    | none => trivial
    | some found =>
      have hne : delimiter.toList ≠ [] := by
        intro hnil
        simp [hnil] at h
      exact skipUntil?_crosses hne hnarrow hwide

/-- The characters of a class go on in the tail only where the text ends with them. -/
theorem takeWhile_edge (ofClass : Char → Bool) (hstop : ∀ x, isStop x = true → ofClass x = false)
    (rest : List Char) : (rest ++ v.tail).takeWhile ofClass = rest.takeWhile ofClass ∨
      v.loose ∧ rest.length < ((rest ++ v.tail).takeWhile ofClass).length := by
  rw [List.takeWhile_append]
  split
  · rename_i hall
    cases htail : v.tail with
    | nil => exact .inl (by simpa using ((List.takeWhile_prefix ofClass).eq_of_length hall).symm)
    | cons x tail =>
      by_cases hx : ofClass x = true
      · refine .inr ⟨v.loose_of_head (x := x) (by simp [htail]) ?_,by simp [hx]⟩
        cases hstops : isStop x with
        | false => rfl
        | true => simp [hstop x hstops] at hx
      · exact .inl (by simpa [hx] using ((List.takeWhile_prefix ofClass).eq_of_length hall).symm)
  · exact .inl rfl

theorem advance_followedBy {n : Nat} {c : Cursor} {tail : List Char} (h : n ≤ c.rest.length) :
    advance n (c.followedBy tail) = (advance n c).followedBy tail := by
  fun_induction advance n c with
  | case1 => rfl
  | case2 => simp at h
  | case3 n passed x rest ih => exact ih (by simpa using h)

/-- A scan that reads all characters of a class, of which there has to be one. -/
theorem whileClass_sees {scan : Scan α} {ofClass : Char → Bool} (result : List Char → α)
    (hstop : ∀ x, isStop x = true → ofClass x = false)
    (hnone : ∀ c : Cursor, c.rest.takeWhile ofClass = [] → ∃ f, scan c = .error f c)
    (hsome : ∀ c : Cursor, c.rest.takeWhile ofClass ≠ [] → scan c =
      .ok (result (c.rest.takeWhile ofClass)) (advance (c.rest.takeWhile ofClass).length c))
    (hmoves : v.scans.Moves scan fun d _ => 1 ≤ d) : v.scans.Sees 1 scan := by
  refine ⟨hmoves,fun c _ _ => ?_⟩
  have hrest : (v.scans.extend c).rest = c.rest ++ v.tail := rfl
  rcases takeWhile_edge (v := v) ofClass hstop c.rest with hsame | ⟨hloose,hlength⟩
  · rw [← hrest] at hsame
    by_cases hempty : c.rest.takeWhile ofClass = []
    · obtain ⟨f,hnarrow⟩ := hnone c hempty
      obtain ⟨g,hwide⟩ := hnone (v.scans.extend c) (hsame.trans hempty)
      rw [hnarrow,hwide]
      trivial
    · rw [hsome c hempty,hsome _ (by rwa [hsame]),hsame]
      exact .inl ⟨rfl,advance_followedBy (List.takeWhile_prefix _).length_le⟩
  · rw [← hrest] at hlength
    have hne : (v.scans.extend c).rest.takeWhile ofClass ≠ [] := by
      intro hnil
      simp [hnil] at hlength
    rw [hsome _ hne]
    refine .of_lost hloose (Horizon.astray_of_distance (s := c) ?_)
    rw [distance_eq (advance_takeWhile ofClass _).1,(advance_takeWhile ofClass _).2]
    change c.rest.length < _
    omega

theorem not_isDigit_of_isStop {x : Char} (h : isStop x = true) : isDigit x = false := by
  simp only [isStop,Bool.or_eq_true,beq_iff_eq] at h
  rcases h with rfl | rfl <;> decide

theorem not_isStop_of_isDigit {x : Char} (h : isDigit x = true) : isStop x = false := by
  cases hstop : isStop x with
  | false => rfl
  | true => simp [not_isDigit_of_isStop hstop] at h

theorem digits_sees (production : String) : v.scans.Sees 1 (digits production) := by
  refine whileClass_sees id (fun _ => not_isDigit_of_isStop) ?_ ?_
    (moves_of_runs (digits_runs production))
  · intro c hc
    exact ⟨_,by simp [digits,hc,unexpected,Cursor.fail]; rfl⟩
  · intro c hc
    cases hfound : c.rest.takeWhile isDigit with
    | nil => exact absurd hfound hc
    | cons x found => simp [digits,hfound]

theorem unsigned_sees (production : String) : v.scans.Sees 1 (unsigned production) := by
  unfold unsigned
  refine get_sees (fun _ => rfl) fun c => ?_
  refine Horizon.Sees.first (digits_sees production) fun found => .ite (fun _ => ?_) fun _ => ?_
  · exact Horizon.Sees.failing fail_sees
  · exact .pure (Nat.le_refl 0)

theorem number_sees (production : String) : v.scans.Sees 1 (number production) := by
  unfold number
  refine (consume_sees "n" (by decide)).bind fun _ _ _ => ?_
  refine (Horizon.Sees.first (unsigned_sees production) fun _ => .pure (Nat.le_refl 0)).imp ?_
  exact fun _ _ _ => by omega

end

end Cursor

namespace Grammar

open Cursor Horizon

section
variable {v : Outlook}

theorem not_isSeqDigit_of_isStop {x : Char} (h : isStop x = true) : isSeqDigit x = false := by
  simp only [isStop,Bool.or_eq_true,beq_iff_eq] at h
  rcases h with rfl | rfl <;> decide

theorem seqId_sees (production : String) : v.scans.Sees 1 (seqId production) := by
  refine whileClass_sees (numeral 36) (fun _ => not_isSeqDigit_of_isStop) ?_ ?_
    (moves_of_runs (seqId_runs production))
  · intro c hc
    exact ⟨_,by simp [seqId,hc,Cursor.unexpected,Cursor.fail]; rfl⟩
  · intro c hc
    cases hfound : c.rest.takeWhile isSeqDigit with
    | nil => exact absurd hfound hc
    | cons x found => simp [seqId,hfound]

/-- How many underscores stand before the digit that a discriminator starts with. -/
def underscores (rest : List Char) : Option Nat :=
  if ['_'].isPrefixOf rest && rest[1]?.any isDigit then some 1
  else if ['_','_'].isPrefixOf rest && rest[2]?.any isDigit then some 2
  else none

def discriminatorOf : Option Nat → Scan Unit
  | none => pure ⟨⟩
  | some 1 => do
    let _ ← takeCode "discriminator"
  | some _ => do
    let _ ← takeCode "discriminator"
    let _ ← digits "discriminator"
    expect "_" "discriminator"

theorem discriminator_eq (c : Cursor) :
    discriminator c = discriminatorOf (underscores c.rest) c := by
  unfold discriminator underscores
  cases h₁ : ['_'].isPrefixOf c.rest <;> cases h₂ : c.rest[1]?.any isDigit <;>
    cases h₃ : ['_','_'].isPrefixOf c.rest <;> cases h₄ : c.rest[2]?.any isDigit <;>
      simp [lookingAt,peekIs,startsWith,h₁,h₂,h₃,h₄,discriminatorOf,-List.isPrefixOf_iff_prefix]

theorem underscores_eq_some_iff {rest : List Char} {n : Nat} :
    underscores rest = some n ↔ (n = 1 ∨ n = 2) ∧
      ∃ d more, rest = List.replicate n '_' ++ d :: more ∧ isDigit d = true := by
  unfold underscores
  constructor
  · intro h
    split at h
    · rename_i hsingle
      cases h
      rcases rest with _ | ⟨x,_ | ⟨y,rest⟩⟩ <;> simp [List.isPrefixOf] at hsingle
      obtain ⟨rfl,hdigit⟩ := hsingle
      exact ⟨.inl rfl,y,rest,rfl,hdigit⟩
    · split at h
      · rename_i hdouble
        cases h
        rcases rest with _ | ⟨x,_ | ⟨y,_ | ⟨z,rest⟩⟩⟩ <;> simp [List.isPrefixOf] at hdouble
        obtain ⟨⟨rfl,rfl⟩,hdigit⟩ := hdouble
        exact ⟨.inr rfl,z,rest,rfl,hdigit⟩
      · cases h
  · rintro ⟨rfl | rfl,d,more,rfl,hdigit⟩
    · simp [List.isPrefixOf,hdigit]
    · simp [List.replicate,List.isPrefixOf,hdigit,show isDigit '_' = false by decide]

/-- The underscores and the digit are seen in the text, or reading them leads astray. -/
theorem underscores_edge (rest : List Char) :
    underscores (rest ++ v.tail) = underscores rest ∨
      v.loose ∧ ∃ n, underscores (rest ++ v.tail) = some n ∧ rest.length ≤ n := by
  cases hwide : underscores (rest ++ v.tail) with
  | none =>
    cases hnarrow : underscores rest with
    | none => exact .inl rfl
    | some n =>
      obtain ⟨hn,d,more,hrest,hdigit⟩ := underscores_eq_some_iff.mp hnarrow
      have hsome : underscores (rest ++ v.tail) = some n :=
        underscores_eq_some_iff.mpr ⟨hn,d,more ++ v.tail,by simp [hrest],hdigit⟩
      rw [hwide] at hsome
      cases hsome
  | some n =>
    obtain ⟨hn,d,more,hrest,hdigit⟩ := underscores_eq_some_iff.mp hwide
    rcases List.append_eq_append_iff.mp hrest with ⟨back,hback,htail⟩ | ⟨back,hback,htail⟩
    · refine .inr ⟨?_,n,rfl,?_⟩
      · cases back with
        | nil => exact v.loose_of_head (x := d) (by simp [htail]) (not_isStop_of_isDigit hdigit)
        | cons x back =>
          have hx : x ∈ List.replicate n '_' := by simp [hback]
          rw [List.eq_of_mem_replicate hx] at htail
          exact v.loose_of_head (x := '_') (by simp [htail]) (by decide)
      · have hlength := congrArg List.length hback
        simp only [List.length_replicate,List.length_append] at hlength
        omega
    · cases back with
      | nil =>
        have htail : v.tail = d :: more := htail.symm
        exact .inr ⟨v.loose_of_head (x := d) (by simp [htail]) (not_isStop_of_isDigit hdigit),n,rfl,
          by simp [hback]⟩
      | cons x back =>
        obtain ⟨rfl,_⟩ := List.cons.inj htail
        exact .inl (underscores_eq_some_iff.mpr ⟨hn,d,back,hback,hdigit⟩).symm

theorem discriminator_sees : v.scans.Sees 0 discriminator := by
  have hof : ∀ form, v.scans.Sees 0 (discriminatorOf form) := by
    intro form
    unfold discriminatorOf
    split
    · exact .pure (Nat.le_refl 0)
    · exact Sees.first (Sees.rest (takeCode_sees _)) fun _ => .pure (Nat.le_refl 0)
    · exact Sees.first (Sees.rest (takeCode_sees _)) fun _ =>
        Sees.first (Sees.rest (digits_sees _)) fun _ => Sees.rest (expect_sees _ _)
  have hsome : ∀ n, n = 1 ∨ n = 2 → v.scans.Sees (n + 1) (discriminatorOf (some n)) := by
    rintro n (rfl | rfl)
    · exact Sees.first (takeCode_sees _) fun _ => .pure (Nat.le_refl 0)
    · exact Sees.andThen (takeCode_sees _) fun _ => Sees.first (digits_sees _) fun _ =>
        Sees.rest (expect_sees _ _)
  have heq :
      discriminator = ((do return underscores (← get).rest) >>= discriminatorOf : Scan Unit) :=
    funext fun c => discriminator_eq c
  rw [heq]
  refine look_sees (fun _ => rfl) (fun form => .of_seesTo (hof form)) fun c _ => ?_
  rcases underscores_edge (v := v) c.rest with h | ⟨hloose,n,hn,hlength⟩
  · exact .inl h
  · refine .inr (.inr ⟨hloose,?_⟩)
    change v.scans.Moves (discriminatorOf (underscores (c.rest ++ v.tail))) _
    rw [hn]
    have hforms := (underscores_eq_some_iff.mp hn).1
    exact ((hsome n hforms).imp fun _ _ hd => Nat.lt_of_le_of_lt hlength hd).moves

theorem numberSuffix_sees (production : String) : v.scans.Sees 1 (numberSuffix production) := by
  unfold numberSuffix
  refine Sees.ifFound (consume_sees "_" (by decide)) (.pure (Nat.le_refl 0)) ?_ (by decide)
  exact Sees.first (unsigned_sees _) fun _ => Sees.first (Sees.rest (expect_sees "_" _)) fun _ =>
    .pure (Nat.le_refl 0)

theorem identifier_sees : v.scans.Sees 2 identifier := by
  unfold identifier
  refine get_sees (fun _ => rfl) fun c => (unsigned_sees _).bind fun d length hd => ?_
  refine .ite (fun _ => Sees.failing fail_sees) fun hlength => ?_
  refine (Sees.first (takeChars_sees length _) fun _ => .pure (Nat.le_refl 0)).imp ?_
  exact fun _ _ _ => by omega

theorem consumed_sees {literal : String} (h : literal.toList.any isStop = false) :
    v.scans.Sees 0 (consume literal) :=
  (consume_sees literal h).imp fun _ _ _ => Nat.zero_le _

theorem cvQualifiers_sees : v.scans.Sees 0 cvQualifiers := by
  unfold cvQualifiers
  exact Sees.first (consumed_sees (by decide)) fun _ => Sees.first (consumed_sees (by decide))
    fun _ => Sees.first (consumed_sees (by decide)) fun _ => .pure (Nat.le_refl 0)

theorem refQualifier_sees : v.scans.Sees 0 refQualifier := by
  unfold refQualifier
  exact Sees.first (consumed_sees (by decide)) fun _ => .ite (fun _ => .pure (Nat.le_refl 0))
    fun _ => Sees.first (consumed_sees (by decide)) fun _ => .ite (fun _ => .pure (Nat.le_refl 0))
      fun _ => .pure (Nat.le_refl 0)

theorem functionTypeEnd_sees :
    v.scans.SeesTo functionTypeEnd fun d found => found.isSome = true → 1 ≤ d := by
  unfold functionTypeEnd
  refine (consume_sees "E" (by decide)).bind fun d found hd => .ite (fun hfound => ?_) fun _ =>
    (consume_sees "RE" (by decide)).bind fun d' found hd' => .ite (fun hfound => ?_) fun _ =>
      (consume_sees "OE" (by decide)).bind fun d'' found hd'' => .ite (fun hfound => ?_) fun _ =>
        .pure (by simp)
  · exact .pure fun _ => hd hfound
  · have hlit : 2 ≤ d' := hd' hfound
    exact .pure fun _ => by omega
  · have hlit : 2 ≤ d'' := hd'' hfound
    exact .pure fun _ => by omega

theorem functionParam_sees : v.scans.Sees 2 functionParam := by
  have numbered : v.scans.Sees 0 (do
      let _ ← cvQualifiers
      if ← consume "_" then return .functionParam none
      let number ← unsigned "function parameter"
      expect "_" "function parameter"
      return .functionParam (some number) : Scan Node) :=
    Sees.first cvQualifiers_sees fun _ => Sees.ifFound (consume_sees "_" (by decide))
      (.pure (Nat.le_refl 0)) (Sees.first (Sees.rest (unsigned_sees _)) fun _ =>
        Sees.first (Sees.rest (expect_sees "_" _)) fun _ => .pure (Nat.le_refl 0)) (Nat.zero_le _)
  unfold functionParam
  refine Sees.ifFound (k := 0) (consume_sees "fL" (by decide)) ?_ ?_ (by decide)
  · exact Sees.first (Sees.rest (unsigned_sees _)) fun _ =>
      Sees.first (Sees.rest (expect_sees "p" _)) fun _ => numbered
  · exact Sees.first (Sees.le (expect_sees "fp" _) (by decide)) fun _ => numbered

theorem callOffset_sees (letter : Char) (c : Cursor) : v.scans.Sees 0 (callOffset letter c) := by
  unfold callOffset
  split
  · exact Sees.first (Sees.rest (number_sees _)) fun _ => Sees.first (Sees.rest (expect_sees _ _))
      fun _ => .pure (Nat.le_refl 0)
  · exact Sees.first (Sees.rest (number_sees _)) fun _ => Sees.first (Sees.rest (expect_sees _ _))
      fun _ => Sees.first (Sees.rest (number_sees _)) fun _ =>
        Sees.first (Sees.rest (expect_sees _ _)) fun _ => .pure (Nat.le_refl 0)
  · exact fail_sees

theorem announcedCallOffset_sees : v.scans.Sees 0 announcedCallOffset :=
  get_sees (fun _ => rfl) fun c => Sees.first (Sees.rest (next_sees _)) fun letter =>
    callOffset_sees letter c

theorem callOffsets_sees (kind : SpecialNameKind) : v.scans.Sees 0 (callOffsets kind) := by
  have single : ∀ letter : Char,
      v.scans.Sees 0 (do return [← callOffset letter (← get)] : Scan (List CallOffset)) :=
    fun letter => get_sees (fun _ => rfl) fun c => Sees.first (callOffset_sees letter c) fun _ =>
      .pure (Nat.le_refl 0)
  unfold callOffsets
  split
  · exact single 'h'
  · exact single 'v'
  · exact Sees.first announcedCallOffset_sees fun _ => Sees.first announcedCallOffset_sees fun _ =>
      .pure (Nat.le_refl 0)
  · exact .pure (Nat.le_refl 0)

end

end Grammar

end MangledNames
