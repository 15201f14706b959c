import MangledNames.Proofs.Grammar.HorizonEncodings
import MangledNames.Proofs.Grammar.DecodingEncodings
set_option autoImplicit false

/-!
The marks of copies at the end of a symbol: how far they are read, and which marks make up a suffix.
-/

namespace MangledNames.Grammar

open Horizon Cursor

section
variable {v : Outlook} {n : Nat} (hspace : v.loose ∨ v.tail.head? = some ' ')

theorem not_isWord_of_isStop {x : Char} (h : isStop x = true) :
    (x.isAlphanum || x == '_') = false := by
  simp only [isStop,Bool.or_eq_true,beq_iff_eq] at h
  rcases h with rfl | rfl <;> decide

theorem cloneMark_of_head {rest : List Char} (h : rest.head? ≠ some '.') : cloneMark rest = [] := by
  unfold cloneMark
  split
  · exact absurd rfl h
  · rfl

theorem two_le_cloneMark {rest : List Char} (h : cloneMark rest ≠ []) :
    2 ≤ (cloneMark rest).length := by
  revert h
  unfold cloneMark
  split
  · split
    · simp
    · split <;> simp
  · simp

include hspace in
/-- A text too short for a mark becomes one only when it goes on in the tail. -/
theorem cloneMark_edge_of_short {rest : List Char} (hlength : rest.length ≤ 1)
    (hnone : cloneMark rest = []) (hspaced : ∀ more, cloneMark (rest ++ ' ' :: more) = []) :
    cloneMark (rest ++ v.tail) = cloneMark rest ∨
      v.loose ∧ rest.length < (cloneMark (rest ++ v.tail)).length := by
  by_cases hwide : cloneMark (rest ++ v.tail) = []
  · exact .inl (hwide.trans hnone.symm)
  · have htwo := two_le_cloneMark hwide
    refine .inr ⟨hspace.resolve_right fun hhead => hwide ?_,by omega⟩
    obtain ⟨more,htail⟩ := List.head?_eq_some_iff.mp hhead
    rw [htail]
    exact hspaced more

theorem markOf_edge (y : Char) (rest : List Char) {ofClass : Char → Bool}
    (hstop : ∀ x, isStop x = true → ofClass x = false) :
    '.' :: y :: (rest ++ v.tail).takeWhile ofClass = '.' :: y :: rest.takeWhile ofClass ∨
      v.loose ∧
      ('.' :: y :: rest).length < ('.' :: y :: (rest ++ v.tail).takeWhile ofClass).length := by
  rcases takeWhile_edge (v := v) ofClass hstop rest with hsame | ⟨hloose,hlength⟩
  · exact .inl (by rw [hsame])
  · exact .inr ⟨hloose,by simpa using hlength⟩

include hspace in
/-- A mark goes on in the tail only where the text ends with it. -/
theorem cloneMark_edge (rest : List Char) : cloneMark (rest ++ v.tail) = cloneMark rest ∨
    v.loose ∧ rest.length < (cloneMark (rest ++ v.tail)).length := by
  have unmarked : ∀ {x : Char} (hx : x ≠ '.') (rest : List Char), cloneMark (x :: rest) = [] :=
    fun hx _ => cloneMark_of_head (by simpa using hx)
  match rest with
  | [] => exact cloneMark_edge_of_short hspace (by simp) rfl fun _ => rfl
  | [x] =>
    by_cases hx : x = '.'
    · subst hx
      exact cloneMark_edge_of_short hspace (by simp) rfl fun _ => rfl
    · exact .inl ((unmarked hx _).trans (unmarked hx _).symm)
  | x :: y :: rest =>
    by_cases hx : x = '.'
    · subst hx
      simp only [List.cons_append,cloneMark]
      by_cases hword : (y.isAlpha || y == '_') = true
      · simpa only [if_pos hword] using markOf_edge y rest fun _ => not_isWord_of_isStop
      · by_cases hdigit : isDigit y = true
        · simpa only [if_neg hword,if_pos hdigit] using markOf_edge y rest fun _ =>
            not_isDigit_of_isStop
        · exact .inl (by simp only [if_neg hword,if_neg hdigit])
    · exact .inl ((unmarked hx _).trans (unmarked hx _).symm)

def markRound (mark : List Char) (marks : List (List Char)) :
    Parser (Round (List (List Char)) (List (List Char))) :=
  if mark.isEmpty then return .done marks.reverse
  else do return .again ((← takeChars mark.length "clone suffix") :: marks)

theorem cloneSuffix_eq : cloneSuffix = do
    let marks ← repeatRound (fun marks => do markRound (cloneMark (← here).rest) marks) []
    return if marks.isEmpty then none else some (String.ofList marks.flatten) := by
  unfold cloneSuffix itemsUntil
  refine congrArg (fun round => repeatRound round [] >>= _)
    (funext fun marks => funext fun context => ?_)
  change (if (cloneMark context.cursor.rest).isEmpty = true then _ else _ : Parser _) context =
    markRound (cloneMark context.cursor.rest) marks context
  unfold markRound
  split <;> rfl

theorem markRound_sees (mark : List Char) (marks : List (List Char)) :
    (v.parses n).SeesTo (markRound mark marks) fun d result =>
      RoundReads 0 d result ∧ mark.length ≤ d := by
  unfold markRound
  refine .ite (fun hempty => .pure ?_) fun hempty => ?_
  · exact ⟨Nat.le_refl 0,by simp [List.isEmpty_iff.mp hempty]⟩
  · refine SeesFrom.bind (scanning_sees (takeChars_sees mark.length _)) fun d found hd => .pure ?_
    have hlength : 0 < mark.length := List.length_pos_iff.mpr (by simpa using hempty)
    exact ⟨show 1 ≤ d + 0 by omega,hd⟩

/-- Marks that were read are not given up. -/
theorem markRounds_keep (bound : List Char) {marks : List (List Char)} (hmarks : marks ≠ [])
    (context : Context) : Ends (fun found _ => found ≠ []) (fun _ _ => True)
      (repeatWithin (fun marks => do markRound (cloneMark (← here).rest) marks) bound marks
        context) := by
  have round : ∀ marks : List (List Char), marks ≠ [] → ∀ context : Context,
      Ends (fun result _ => ∀ found, result = .again found ∨ result = .done found → found ≠ [])
        (fun _ _ => True) (markRound (cloneMark context.cursor.rest) marks context) := by
    intro marks hmarks context
    unfold markRound
    split
    · simpa [Ends] using hmarks
    · rw [bind_apply]
      cases (liftM (takeChars _ "clone suffix") : Parser (List Char)) context <;> simp [Ends]
  -- What the rounds keep is that there is a mark already.
  induction bound generalizing marks context with
  | nil =>
    unfold repeatWithin
    refine (round marks hmarks context).bind ?_
    rintro (found | found) t hfound
    · trivial
    · exact hfound found (.inr rfl)
  | cons x bound ih =>
    unfold repeatWithin
    refine (round marks hmarks context).bind ?_
    rintro (found | found) t hfound
    · exact ih (hfound found (.inl rfl)) t
    · exact hfound found (.inr rfl)

theorem cloneSuffix_none {context after : Context} (h : cloneSuffix context = .ok none after) :
    after = context := by
  rw [cloneSuffix_eq] at h
  obtain ⟨marks,t,hmarks,hsuffix⟩ := bind_ok h
  have hnil : marks = [] ∧ t = after := by
    cases marks with
    | nil => exact ⟨rfl,by cases hsuffix; rfl⟩
    | cons => cases hsuffix
  obtain ⟨rfl,rfl⟩ := hnil
  change repeatWithin _ _ _ _ = _ at hmarks
  rw [repeatWithin_eq] at hmarks
  obtain ⟨result,u,hround,hafter⟩ := bind_ok hmarks
  change markRound _ _ _ = _ at hround
  unfold markRound at hround
  split at hround
  · cases hround
    cases hafter
    rfl
  · obtain ⟨mark,w,_,hagain⟩ := bind_ok hround
    cases hagain
    cases hrest : context.cursor.rest with
    | nil =>
      rw [hrest] at hafter
      cases hafter
    | cons x bound =>
      rw [hrest] at hafter
      have hkeep := markRounds_keep bound (List.cons_ne_nil mark []) u
      change repeatWithin _ bound _ u = _ at hafter
      rw [hafter] at hkeep
      exact absurd rfl hkeep

theorem not_isAlpha_of_isDigit {c : Char} (h : isDigit c = true) :
    (c.isAlpha || c == '_') = false := by
  simp only [isDigit,Bool.and_eq_true,decide_eq_true_eq] at h
  have hc : c.val.toNat ≤ 57 := h.2
  have hne : c ≠ '_' := by
    rintro rfl
    exact absurd h (by decide)
  have hupper : ¬65 ≤ c.val := fun hle => by
    have : 65 ≤ c.val.toNat := hle
    omega
  have hlower : ¬97 ≤ c.val := fun hle => by
    have : 97 ≤ c.val.toNat := hle
    omega
  have hletter : c.isAlpha = (decide (65 ≤ c.val ∧ c.val ≤ 90) ||
      decide (97 ≤ c.val) && decide (c.val ≤ 122)) := rfl
  simp [hletter,hne,hupper,hlower]

inductive IsMark : List Char → Prop
  | word {c : Char} {more : List Char} : (c.isAlpha || c == '_') = true →
    (∀ x ∈ more, (x.isAlphanum || x == '_') = true) → IsMark ('.' :: c :: more)
  | number {c : Char} {more : List Char} : isDigit c = true → (∀ x ∈ more, isDigit x = true) →
    IsMark ('.' :: c :: more)

/-- One or more marks. -/
def IsCloneSuffix (suffix : String) : Prop :=
  ∃ marks : List (List Char), marks ≠ [] ∧ (∀ mark ∈ marks, IsMark mark) ∧
    suffix.toList = marks.flatten

/-- A mark ends where another one starts. -/
theorem IsMark.cloneMark_append {mark rest : List Char} (h : IsMark mark)
    (hrest : rest.head?.all (· == '.') = true) : cloneMark (mark ++ rest) = mark := by
  have stops : ∀ ofClass : Char → Bool, ofClass '.' = false → rest.head?.any ofClass = false := by
    intro ofClass hdot
    cases rest with
    | nil => rfl
    | cons x rest =>
      obtain rfl : x = '.' := by simpa using hrest
      exact hdot
  cases h with
  | word hc hmore =>
    simp only [List.cons_append,cloneMark,if_pos hc,takeWhile_append hmore (stops _ rfl)]
  | @number c more hc hmore =>
    have hword : ¬(c.isAlpha || c == '_') = true := fun hword => by
      rw [not_isAlpha_of_isDigit hc] at hword
      cases hword
    simp only [List.cons_append,cloneMark,if_neg hword,if_pos hc,takeWhile_append hmore
      (stops _ rfl)]

theorem IsMark.head {mark : List Char} (h : IsMark mark) : mark.head? = some '.' := by
  cases h <;> rfl

theorem head_flatten {marks : List (List Char)} (h : ∀ mark ∈ marks, IsMark mark) :
    marks.flatten.head?.all (· == '.') = true := by
  cases marks with
  | nil => rfl
  | cons mark marks => simp [List.head?_append,(h mark (by simp)).head]

theorem IsCloneSuffix.head {suffix : String} (h : IsCloneSuffix suffix) :
    suffix.toList.head? = some '.' := by
  obtain ⟨marks,hne,hmarks,hsuffix⟩ := h
  cases marks with
  | nil => exact absurd rfl hne
  | cons mark marks => simp [hsuffix,List.head?_append,(hmarks mark (by simp)).head]

theorem IsMark.ne_nil {mark : List Char} (h : IsMark mark) : mark ≠ [] := by
  cases h <;> simp

theorem cloneSuffix_reads_marks (allowed : Bool) (table : Substitutions) {marks : List (List Char)}
    (hne : marks ≠ []) (h : ∀ mark ∈ marks, IsMark mark) :
    Reads allowed cloneSuffix marks.flatten table (some (String.ofList marks.flatten))
      [] table := by
  have hend : Reads allowed (return (cloneMark (← here).rest).isEmpty) [] table true [] table := by
    refine here_then fun c hc => ?_
    rw [hc]
    exact .pure
  have items : Items allowed (do takeChars (cloneMark (← here).rest).length "clone suffix" :
      Parser (List Char)) (fun mark rest => mark ≠ [] ∧ cloneMark rest = mark)
      marks.flatten table marks [] table := by
    clear hne
    -- On the marks; a mark ends where the dot of the next one, or nothing, follows.
    induction marks with
    | nil => exact .nil [] table
    | cons mark marks ih =>
      have hmark := h mark (by simp)
      have hmarks : ∀ mark ∈ marks, IsMark mark := fun mark hmem => h mark (by simp [hmem])
      have hcut := hmark.cloneMark_append (head_flatten hmarks)
      refine .cons ⟨hmark.ne_nil,hcut⟩ (here_then fun c hc => ?_) ?_ (ih hmarks)
      · rw [hc,List.flatten_cons,hcut]
        exact scanned (takeChars_gives mark _ _)
      · have := List.length_pos_iff.mpr hmark.ne_nil
        simp only [List.flatten_cons,List.length_append]
        omega
  have hsome : marks.isEmpty = false := by simpa using hne
  unfold cloneSuffix
  refine (itemsUntil_reads items ?_ hend).bind ?_
  · rintro mark rest table' ⟨hmark,hcut⟩
    refine here_then fun c hc => ?_
    rw [hc,hcut,List.isEmpty_eq_false_iff.mpr hmark]
    exact .pure
  · rw [hsome]
    exact .pure

include hspace in
/-- The marks of a copy end with the text, or lead astray. -/
theorem cloneSuffix_sees : (v.parses n).Sees 0 cloneSuffix := by
  rw [cloneSuffix_eq]
  refine Sees.first (n := 0) (repeatRound_sees (fun marks context => ?_)
    (fun marks context hcontext => .inl ?_) []) fun marks => done_sees _
  · exact ((markRound_sees (cloneMark context.cursor.rest) marks).moves context).imp
      (fun _ _ ht => ⟨ht.1,ht.2.1⟩) fun _ _ ht => ht
  · change (v.parses n).Agrees
      (markRound (cloneMark (context.cursor.rest ++ v.tail)) marks (context.followedBy v.tail))
      (markRound (cloneMark context.cursor.rest) marks context)
    rcases cloneMark_edge hspace context.cursor.rest with hsame | ⟨hloose,hlength⟩
    · rw [hsame]
      exact (markRound_sees _ marks).agrees context hcontext trivial
    · refine .of_lost hloose (((markRound_sees (n := n) (v := v) _ marks).moves _).imp
        (fun _ _ ht => ?_) fun _ _ _ => trivial)
      exact astray_of_distance (s := context) (Nat.lt_of_lt_of_le hlength ht.2.2)

include hspace in
theorem mangledName_sees {r : Rules} (hr : r.Foresee v n) :
    (v.parses n).Sees 2 (mangledName r) := by
  unfold mangledName
  exact Sees.first hr.encoding fun encoding =>
    Sees.after (cloneSuffix_sees hspace) fun suffix => build_sees _

end

end MangledNames.Grammar
