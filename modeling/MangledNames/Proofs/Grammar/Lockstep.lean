import MangledNames.Proofs.Grammar.Trial
set_option autoImplicit false

/-!
Two runs over one text, of which the second may have more text in front of it and more levels of
nesting left: they read the same, only the offsets of their errors lie further on.
-/

namespace MangledNames

/-- The error in a text with `n` more characters in front. -/
def DemangleError.later (n : Nat) : DemangleError → DemangleError
  | unexpectedEnd production offset => unexpectedEnd production (offset + n)
  | unexpectedToken production offset token => unexpectedToken production (offset + n) token
  | badBackReference index size offset => badBackReference index size (offset + n)
  | unsupportedExtension extension offset => unsupportedExtension extension (offset + n)
  | error => error

theorem DemangleError.later_zero (e : DemangleError) : e.later 0 = e := by
  cases e <;> rfl

theorem DemangleError.category_later (n : Nat) (e : DemangleError) :
    (e.later n).category = e.category := by
  cases e <;> rfl

def Fault.later (n : Nat) : Fault → Fault
  | error e => error (e.later n)
  | broken promise => broken promise

theorem Fault.later_zero (fault : Fault) : fault.later 0 = fault := by
  cases fault with
  | error e => exact congrArg error e.later_zero
  | broken promise => rfl

namespace Cursor

def behind (front : List Char) (c : Cursor) : Cursor := ⟨c.passed ++ front,c.rest⟩

section
variable (front : List Char) (c : Cursor)

@[simp] theorem behind_rest : (c.behind front).rest = c.rest := rfl

@[simp] theorem behind_position : (c.behind front).position = c.position + front.length := by
  simp [position,behind]

@[simp] theorem behind_length : (c.behind front).length = c.length + front.length := by
  simp only [length,behind,List.length_append]
  omega

theorem advance?_behind (n : Nat) :
    advance? n (c.behind front) = (advance? n c).map (behind front) := by
  fun_induction advance? n c with
  | case1 c => rfl
  | case2 => rfl
  | case3 n passed x rest ih => exact ih

theorem advance_behind (n : Nat) : advance n (c.behind front) = (advance n c).behind front := by
  fun_induction advance n c with
  | case1 c => rfl
  | case2 => rfl
  | case3 n passed x rest ih => exact ih

theorem skip?_behind (literal : List Char) :
    skip? literal (c.behind front) = (skip? literal c).map (behind front) := by
  fun_induction skip? literal c with
  | case1 c => rfl
  | case2 => rfl
  | case3 literal passed x rest ih =>
    simp only [behind,skip?,if_true]
    exact ih
  | case4 l literal passed x rest h => simp [behind,skip?,h]

theorem skipUntil?_behind (delimiter before : List Char) :
    skipUntil? delimiter before (c.behind front) =
      (skipUntil? delimiter before c).map fun found => (found.1,found.2.behind front) := by
  fun_induction skipUntil? delimiter before c with
  | case1 before passed rest after h =>
    have hb := skip?_behind front ⟨passed,rest⟩ delimiter
    unfold skipUntil?
    simp only [behind] at hb ⊢
    simp [hb,h,behind]
  | case2 before passed h =>
    have hb := skip?_behind front ⟨passed,[]⟩ delimiter
    unfold skipUntil?
    simp only [behind] at hb ⊢
    simp [hb,h]
  | case3 before passed x rest h ih =>
    have hb := skip?_behind front ⟨passed,x :: rest⟩ delimiter
    rw [skipUntil?.eq_def]
    simp only [behind] at hb ih ⊢
    simp only [hb,h,Option.map_none]
    exact ih

theorem back_behind (n : Nat) (h : n ≤ c.position) :
    back n (c.behind front) = (back n c).behind front := by
  fun_induction back n c with
  | case1 c => rfl
  | case2 => simp [position] at h
  | case3 n x passed rest ih => exact ih (by simpa [position] using h)

theorem unexpectedAt_behind (production : String) :
    (c.behind front).unexpectedAt production = (c.unexpectedAt production).later front.length := by
  unfold unexpectedAt
  rw [behind_rest]
  split <;> simp [DemangleError.later]

def lockstep : Simulation Cursor Cursor where
  states c d := d = c.behind front
  faults f g := g = f.later front.length
  cutLeft _ := False
  cutRight _ := False

end

section
variable {front : List Char} {α : Type}

theorem fail_alike {e e' : DemangleError} (h : e' = e.later front.length) :
    (lockstep front).Alike (Cursor.fail e : Scan α) (Cursor.fail e' : Scan α) :=
  .throw (congrArg Fault.error h)

theorem get_alike :
    (lockstep front).Holds (fun c d => d = c.behind front) (get : Scan Cursor)
    (get : Scan Cursor) :=
  ⟨fun _ _ h => ⟨h,h⟩⟩

theorem unexpected_alike (production : String) :
    (lockstep front).Alike (unexpected production : Scan α) (unexpected production : Scan α) := by
  refine get_alike.bind fun c d h => fail_alike ?_
  rw [h,unexpectedAt_behind]

theorem look_alike (look : List Char → α) :
    (lockstep front).Alike (do return look (← get).rest : Scan α) (do return look (← get).rest) :=
  get_alike.bind fun c d h => .pure (by rw [h,behind_rest])

theorem atEnd_alike : (lockstep front).Alike atEnd atEnd := look_alike List.isEmpty

theorem peek_alike (distance : Nat) : (lockstep front).Alike (peek distance) (peek distance) :=
  look_alike fun rest => rest[distance]?

theorem peekIs_alike (ofClass : Char → Bool) (distance : Nat) :
    (lockstep front).Alike (peekIs ofClass distance) (peekIs ofClass distance) :=
  look_alike fun rest => rest[distance]?.any ofClass

theorem lookingAt_alike (literal : String) :
    (lockstep front).Alike (lookingAt literal) (lookingAt literal) :=
  look_alike fun rest => literal.toList.isPrefixOf rest

theorem consume_alike (literal : String) :
    (lockstep front).Alike (consume literal) (consume literal) := by
  refine ⟨fun c d h => ?_⟩
  rw [consume_apply,consume_apply,h,skip?_behind]
  cases skip? literal.toList c with
  | none => exact ⟨rfl,rfl⟩
  | some after => exact ⟨rfl,rfl⟩

theorem consumeAny_alike (literals : List String) :
    (lockstep front).Alike (consumeAny literals) (consumeAny literals) := by
  induction literals with
  | nil => exact .pure rfl
  | cons literal others ih =>
    unfold consumeAny
    exact (consume_alike literal).bind fun found => .ite (fun _ => .pure rfl) fun _ => ih

theorem expect_alike (literal production : String) :
    (lockstep front).Alike (expect literal production) (expect literal production) := by
  unfold expect
  exact (consume_alike literal).bind fun found => .ite (fun _ => .pure rfl)
    fun _ => unexpected_alike production

theorem set_alike {c d : Cursor} (h : d = c.behind front) :
    (lockstep front).Alike (set c : Scan PUnit) (set d : Scan PUnit) :=
  ⟨fun _ _ _ => ⟨rfl,h⟩⟩

theorem next_alike (production : String) :
    (lockstep front).Alike (next production) (next production) := by
  unfold next
  refine get_alike.bind ?_
  rintro ⟨passed,_ | ⟨x,rest⟩⟩ d rfl
  · exact fail_alike (congrArg (DemangleError.unexpectedEnd production) (behind_position ..))
  · exact (set_alike rfl).bind fun _ => .pure rfl

theorem takeChars_alike (n : Nat) (production : String) :
    (lockstep front).Alike (takeChars n production) (takeChars n production) := by
  unfold takeChars
  refine get_alike.bind ?_
  rintro c d rfl
  rw [advance?_behind]
  cases h : advance? n c with
  | none => exact fail_alike (congrArg (DemangleError.unexpectedEnd production) (behind_length ..))
  | some after =>
    obtain ⟨read,hn,hp,_⟩ := advance?_eq_some h
    refine Simulation.Holds.bind (set_alike rfl) fun _ _ _ => .pure ?_
    simp [behind,hp,hn]

theorem takeCode_alike (production : String) :
    (lockstep front).Alike (takeCode production) (takeCode production) := by
  unfold takeCode
  refine get_alike.bind ?_
  rintro ⟨passed,_ | ⟨x,_ | ⟨y,rest⟩⟩⟩ d rfl
  · exact fail_alike (congrArg (DemangleError.unexpectedEnd production) (behind_length ..))
  · exact fail_alike (congrArg (DemangleError.unexpectedEnd production) (behind_length ..))
  · exact (set_alike rfl).bind fun _ => .pure rfl

theorem takeUntil_alike (delimiter production : String) :
    (lockstep front).Alike (takeUntil delimiter production) (takeUntil delimiter production) := by
  unfold takeUntil
  refine get_alike.bind ?_
  rintro c d rfl
  rw [skipUntil?_behind]
  cases h : skipUntil? delimiter.toList [] c with
  | none => exact fail_alike (congrArg (DemangleError.unexpectedEnd production) (behind_length ..))
  | some found => exact (set_alike rfl).bind fun _ => .pure rfl

theorem digits_alike (production : String) :
    (lockstep front).Alike (digits production) (digits production) := by
  unfold digits
  refine get_alike.bind ?_
  rintro c d rfl
  rw [behind_rest]
  split
  · exact unexpected_alike production
  · exact (set_alike (advance_behind ..)).bind fun _ => .pure rfl

theorem unsigned_alike (production : String) :
    (lockstep front).Alike (unsigned production) (unsigned production) := by
  unfold unsigned
  refine get_alike.bind ?_
  rintro c d rfl
  refine (digits_alike production).bind fun found => .ite (fun _ => ?_) fun _ => .pure rfl
  exact Simulation.Alike.bind (fail_alike (by simp [DemangleError.later])) fun _ => .pure rfl

theorem number_alike (production : String) :
    (lockstep front).Alike (number production) (number production) := by
  unfold number
  exact (consume_alike "n").bind fun _ => (unsigned_alike production).bind fun _ => .pure rfl

end

end Cursor

namespace Grammar

open Cursor

/-- How two runs differ before they start. -/
structure Gap where
  /-- What else stands in front of the second text. -/
  front : List Char
  /-- Whether the first run has a limit of its own, which may cut it off. -/
  cut : Bool
  /-- Whether the limits of the contexts are the same. -/
  sameLimit : Bool
  /-- Whether both runs are part of a trial. -/
  onTrial : Bool
  /-- The promise that the first run breaks where it is to stop. -/
  stop : Option Promise := none

/-- Contexts at the same place of the text, with equal tables. -/
structure Gap.Same (g : Gap) (c d : Context) : Prop where
  cursor : d.cursor = c.cursor.behind g.front
  substitutions : d.substitutions = c.substitutions
  templateArgsAllowed : d.templateArgsAllowed = c.templateArgsAllowed
  speculative : d.speculative = c.speculative
  depth : d.depth = c.depth
  recursionLimit : g.sameLimit = true → d.recursionLimit = c.recursionLimit
  onTrial : g.onTrial = true → c.speculative = true

theorem Gap.Same.refl {g : Gap} {context : Context} (hfront : g.front = [])
    (h : g.onTrial = true → context.speculative = true) : g.Same context context :=
  ⟨by simp [hfront,Cursor.behind],rfl,rfl,rfl,rfl,fun _ => rfl,h⟩

theorem Gap.Same.eq {g : Gap} {c d : Context} (h : g.Same c d) (hfront : g.front = [])
    (hlimit : g.sameLimit = true) : c = d := by
  obtain ⟨cursor,substitutions,recursionLimit,depth,templateArgsAllowed,speculative⟩ := d
  obtain rfl : cursor = c.cursor := by
    have hcursor := h.cursor
    simpa [hfront,Cursor.behind] using hcursor
  obtain rfl : substitutions = c.substitutions := h.substitutions
  obtain rfl : recursionLimit = c.recursionLimit := h.recursionLimit hlimit
  obtain rfl : depth = c.depth := h.depth
  obtain rfl : templateArgsAllowed = c.templateArgsAllowed := h.templateArgsAllowed
  obtain rfl : speculative = c.speculative := h.speculative
  rfl

def Gap.lockstep (g : Gap) : Simulation Context Context where
  states := g.Same
  faults f f' := f' = f.later g.front.length
  cutLeft f := g.cut = true ∧ f.IsLimit ∨ ∃ promise, g.stop = some promise ∧ f = .broken promise
  cutRight _ := False

theorem Gap.cutLeft_iff {g : Gap} (hstop : g.stop = none) {fault : Fault} :
    g.lockstep.cutLeft fault ↔ g.cut = true ∧ fault.IsLimit :=
  or_iff_left fun ⟨_,hsome,_⟩ => by
    rw [hstop] at hsome
    cases hsome

section
variable {g : Gap} {α β γ : Type}

/-- Runs alike over one text with one limit have the same result, if the first is not cut off. -/
theorem eq_of_alike {m n : Parser α} (h : g.lockstep.Alike m n) (hfront : g.front = [])
    (hlimit : g.sameLimit = true) {context : Context}
    (htrial : g.onTrial = true → context.speculative = true)
    (hcut : ∀ fault after, m context = .error fault after → ¬g.lockstep.cutLeft fault) :
    m context = n context := by
  have hr := h.results context context (.refl hfront htrial)
  cases hm : m context with
  | ok a s =>
    cases hn : n context with
    | ok b t =>
      rw [hm,hn] at hr
      obtain ⟨rfl,hst⟩ := hr
      rw [hst.eq hfront hlimit]
    | error f t =>
      rw [hm,hn] at hr
      exact hr.elim
  | error f s =>
    cases hn : n context with
    | ok b t =>
      rw [hm,hn] at hr
      exact absurd hr (hcut f s hm)
    | error f' t =>
      rw [hm,hn] at hr
      rcases hr with hr | hr | ⟨hf,hst⟩
      · exact absurd hr (hcut f s hm)
      · exact hr.elim
      · have hf : f' = f.later g.front.length := hf
        rw [hst.eq hfront hlimit,hf,hfront]
        exact congrArg (EStateM.Result.error · t) f.later_zero.symm

theorem scanning_holds {v : α → β → Prop} {scan : Scan α} {scan' : Scan β}
    (h : (Cursor.lockstep g.front).Holds v scan scan') :
    g.lockstep.Holds v (liftM scan : Parser α) (liftM scan' : Parser β) := by
  refine ⟨fun c d hcd => ?_⟩
  have hr := h.results c.cursor d.cursor hcd.cursor
  change g.lockstep.Matches v (scanning scan c) (scanning scan' d)
  unfold scanning
  cases hm : scan c.cursor <;> cases hn : scan' d.cursor <;> rw [hm,hn] at hr
  · exact ⟨hr.1,{ hcd with cursor := hr.2 }⟩
  · exact hr.elim
  · exact hr.elim
  · rcases hr with hr | hr | hr
    · exact hr.elim
    · exact hr.elim
    · exact .inr (.inr ⟨hr.1,{ hcd with cursor := hr.2 }⟩)

theorem scanning_alike {scan : Scan α} (h : (Cursor.lockstep g.front).Alike scan scan) :
    g.lockstep.Alike (liftM scan : Parser α) (liftM scan : Parser α) := scanning_holds h

theorem here_alike : g.lockstep.Holds (fun c d => d = c.behind g.front) here here :=
  ⟨fun _ _ h => ⟨h.cursor,h⟩⟩

theorem get_alike : g.lockstep.Holds g.Same (get : Parser Context) (get : Parser Context) :=
  ⟨fun _ _ h => ⟨h,h⟩⟩

theorem fail_alike {e e' : DemangleError} (h : e' = e.later g.front.length) :
    g.lockstep.Alike (fail e : Parser α) (fail e' : Parser α) :=
  .throw (congrArg Fault.error h)

theorem unexpected_alike (production : String) :
    g.lockstep.Alike (unexpected production : Parser α) (unexpected production : Parser α) := by
  refine here_alike.bind fun c d h => fail_alike ?_
  rw [h,unexpectedAt_behind]

theorem broken_alike (promise : Promise) :
    g.lockstep.Alike (throw (.broken promise) : Parser α) (throw (.broken promise) : Parser α) :=
  .throw rfl

theorem build_alike (node : Node) : g.lockstep.Alike (build node) (build node) :=
  .ite (fun _ => .pure rfl) fun _ => broken_alike _

theorem remember_alike (node : Node) : g.lockstep.Alike (remember node) (remember node) :=
  ⟨fun _ _ h => ⟨rfl,
    { h with substitutions := congrArg (Substitutions.append · node) h.substitutions }⟩⟩

variable {m n : Parser α}

theorem remembered_alike {m n : Parser Node} (h : g.lockstep.Alike m n) :
    g.lockstep.Alike (remembered m) (remembered n) :=
  h.bind fun node => (remember_alike node).bind fun _ => .pure rfl

theorem around_alike (enter : Context → Context) (leave : Context → Context → Context)
    (henter : ∀ c d, g.Same c d → g.Same (enter c) (enter d))
    (hleave : ∀ c d c' d', g.Same c d → g.Same c' d' → g.Same (leave c c') (leave d d'))
    (h : g.lockstep.Alike m n) :
    g.lockstep.Alike (around enter leave m) (around enter leave n) := by
  refine ⟨fun c d hcd => ?_⟩
  have hr := h.results _ _ (henter c d hcd)
  unfold around
  cases hm : m (enter c) <;> cases hn : n (enter d) <;> rw [hm,hn] at hr
  · exact ⟨hr.1,hleave _ _ _ _ hcd hr.2⟩
  · exact hr
  · exact hr
  · rcases hr with hr | hr | ⟨hf,hr⟩
    · exact .inl hr
    · exact hr.elim
    · exact .inr (.inr ⟨hf,hleave _ _ _ _ hcd hr⟩)

theorem nested_alike (h : g.lockstep.Alike m n) : g.lockstep.Alike (nested m) (nested n) :=
  around_alike (fun c => { c with depth := c.depth + 1 })
    (fun c after => { after with depth := c.depth })
    (fun _ _ h => { h with depth := congrArg (· + 1) h.depth })
    (fun _ _ _ _ hc h => { h with depth := hc.depth }) h

theorem allowingTemplateArgs_alike (allowed : Bool) (h : g.lockstep.Alike m n) :
    g.lockstep.Alike (allowingTemplateArgs allowed m) (allowingTemplateArgs allowed n) :=
  around_alike (fun c => { c with templateArgsAllowed := allowed })
    (fun c after => { after with templateArgsAllowed := c.templateArgsAllowed })
    (fun _ _ h => { h with templateArgsAllowed := rfl })
    (fun _ _ _ _ hc h => { h with templateArgsAllowed := hc.templateArgsAllowed }) h

/-- Only an error of the text makes a trial go on, and both runs have that error. -/
theorem trial_alike (hg : g.onTrial = false) (h : g.lockstep.Alike m n) :
    g.lockstep.Alike (trial m) (trial n) := by
  refine ⟨fun c d hcd => ?_⟩
  have hr := h.results { c with speculative := true } { d with speculative := true }
    { hcd with speculative := rfl, onTrial := fun _ => rfl }
  have settled : ∀ {c d : Context}, g.Same c d →
      g.Same { c with speculative := false } { d with speculative := false } := fun h =>
    { h with speculative := rfl, onTrial := by simp [hg] }
  -- What cuts the first run off is no error of the text, so that the trial does not swallow it.
  have cut : ∀ {fault : Fault} {after : Context},
      m { c with speculative := true } = .error fault after → g.lockstep.cutLeft fault →
      g.lockstep.Matches Eq (trial m c) (trial n d) := by
    intro fault after hm hcut
    have hfault : ¬fault.IsMalformed := by
      rintro ⟨e,rfl,he⟩
      rcases hcut with ⟨_,_,⟨⟩,hlimit⟩ | ⟨_,_,⟨⟩⟩
      rw [he] at hlimit
      cases hlimit
    rw [trial_of_fault hfault hm]
    exact Simulation.Matches.cutLeft (S := g.lockstep) hcut _
  cases hm : m { c with speculative := true } with
  | ok a after =>
    cases hn : n { d with speculative := true } with
    | ok b after' =>
      rw [hm,hn] at hr
      simp only [trial,hm,hn]
      exact ⟨congrArg some hr.1,settled hr.2⟩
    | error f' after' =>
      rw [hm,hn] at hr
      exact hr.elim
  | error f after =>
    cases hn : n { d with speculative := true } with
    | ok b after' =>
      rw [hm,hn] at hr
      exact cut hm hr
    | error f' after' =>
      rw [hm,hn] at hr
      rcases hr with hr | hr | ⟨hf,hr⟩
      · exact cut hm hr
      · exact hr.elim
      · obtain rfl := hf
        simp only [trial,hm,hn]
        cases f with
        | broken promise => exact .inr (.inr ⟨rfl,settled hr⟩)
        | error e =>
          simp only [Fault.later,DemangleError.category_later]
          split
          · exact ⟨rfl,settled hr⟩
          · exact .inr (.inr ⟨rfl,settled hr⟩)

theorem abandon_alike (checkpoint size : Nat) :
    g.lockstep.Alike (abandon checkpoint size) (abandon (checkpoint + g.front.length) size) := by
  have restored : (Cursor.lockstep g.front).Alike (restore checkpoint)
      (restore ((checkpoint + g.front.length : Nat) : Int)) := by
    unfold restore
    refine Cursor.get_alike.bind ?_
    rintro c d rfl
    rw [behind_position]
    by_cases h : checkpoint ≤ c.position
    · rw [if_pos (by omega),if_pos (by omega)]
      refine set_alike ?_
      rw [show c.position + g.front.length - ((checkpoint + g.front.length : Nat) : Int).toNat =
        c.position - (checkpoint : Int).toNat by omega]
      exact back_behind _ _ _ (Nat.sub_le _ _)
    · rw [if_neg (by omega),if_neg (by omega)]
      exact .throw rfl
  unfold abandon
  refine (scanning_holds restored).bind fun _ _ _ => get_alike.bind fun c d h => ?_
  rw [h.substitutions]
  unfold Substitutions.restore
  by_cases hsize : 0 ≤ (size : Int) ∧ (size : Int) ≤ c.substitutions.size
  · rw [if_pos hsize]
    exact ⟨fun _ _ _ => ⟨rfl,{ h with substitutions := rfl }⟩⟩
  · rw [if_neg hsize]
    exact .throw rfl

/-- The bound of a repetition is the rest of the text. -/
theorem repeatRound_alike {round round' : α → Parser (Round α β)}
    (h : ∀ a, g.lockstep.Alike (round a) (round' a)) (a : α) :
    g.lockstep.Alike (repeatRound round a) (repeatRound round' a) := by
  have within : ∀ (bound : List Char) (a : α),
      g.lockstep.Alike (repeatWithin round bound a) (repeatWithin round' bound a) := by
    intro bound
    induction bound with
    | nil =>
      intro a
      unfold repeatWithin
      refine (h a).bind fun found => ?_
      cases found with
      | again a => exact broken_alike _
      | done b => exact .pure rfl
    | cons x bound ih =>
      intro a
      unfold repeatWithin
      refine (h a).bind fun found => ?_
      cases found with
      | again a => exact ih a
      | done b => exact .pure rfl
  refine here_alike.bind ?_
  rintro c d rfl
  exact within c.rest a

theorem itemsUntil_alike {listEnd listEnd' : Parser Bool} (hend : g.lockstep.Alike listEnd listEnd')
    (h : g.lockstep.Alike m n) :
    g.lockstep.Alike (itemsUntil listEnd m) (itemsUntil listEnd' n) :=
  repeatRound_alike (fun _ => hend.bind fun _ => .ite (fun _ => .pure rfl) fun _ =>
    h.bind fun _ => .pure rfl) []

theorem itemsToE_alike (h : g.lockstep.Alike m n) :
    g.lockstep.Alike (itemsToE m) (itemsToE n) :=
  itemsUntil_alike (scanning_alike (consume_alike "E")) h

end

end Grammar

end MangledNames
