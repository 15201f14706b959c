import MangledNames.Proofs.Grammar.HorizonEncodings
import MangledNames.Proofs.Trials
set_option autoImplicit false

/-!
Trials of levels of qualifiers that are given up only for what they see behind the end of a text. A
reading that stops in front of the first of them reads the same as one that does not see the tail.
-/

namespace MangledNames

namespace Grammar

open Horizon

/-- The same place of another text, with the same table, depth and flags. -/
def Context.over (text : List Char) (context : Context) : Context :=
  { context with cursor := ⟨context.cursor.passed,text.drop context.cursor.position⟩ }

/-- Whether the text does not fit a trial of levels of qualifiers that begins here. -/
def rejectsLevels (r : Rules) (context : Context) : Bool :=
  match terminatedLevels r { context with speculative := true } with
  | .error (.error e) _ => e.category == .malformed
  | _ => false

/-- Whether a trial that begins here is given up in the whole text, and not where that is cut. -/
def misled (whole cut : List Char) (r : Rules) (context : Context) : Bool :=
  rejectsLevels r (context.over whole) && !rejectsLevels r (context.over cut)

/-- Levels of qualifiers that are tried, unless the reading is to stop in front of the trial. -/
def stoppingWhere (watch : Rules → Context → Bool) (promise : Promise) (r : Rules) :
    Parser Node := do
  let context ← get
  if watch r context then throw (.broken promise) else triedLevels r context

/-- A reading that may stop in front of a trial, and the one that never does. -/
def stopping (promise : Promise) : Gap where
  front := []
  cut := false
  sameLimit := true
  onTrial := false
  stop := some promise

section
variable (watch : Rules → Context → Bool) {promise : Promise}

theorem stoppingWhere_apply (r : Rules) (context : Context) :
    stoppingWhere watch promise r context =
      if watch r context then .error (.broken promise) context
      else triedLevels r context context := by
  unfold stoppingWhere
  rw [bind_apply,get_apply]
  dsimp only
  split <;> rfl

theorem stoppingWhere_alike {r r' : Rules} (h : r.Alike (stopping promise) r') :
    (stopping promise).lockstep.Alike (stoppingWhere watch promise r)
      (do triedLevels r' (← get)) := by
  refine get_alike.bind fun c d hcd => ?_
  split
  · exact ⟨fun _ _ _ => Simulation.Matches.cutLeft (S := (stopping promise).lockstep)
      (.inr ⟨promise,rfl,rfl⟩) _⟩
  · exact triedLevels_alike h rfl hcd

/-- Up to where it stops, a reading that is watched is the plain one. -/
theorem Rules.levelsStopping_alike (n : Nat) :
    (Rules.levelsTrying (stoppingWhere watch promise) n).Alike (stopping promise)
    (Rules.levels n) := by
  rw [← Rules.levelsTrying_triedLevels n]
  exact Rules.levelsTrying_alike rfl (fun _ _ h _ => stoppingWhere_alike watch h) n

theorem levelsStopping_alike {r r' : Rules} (h : r.Alike (stopping promise) r') :
    (stopping promise).lockstep.Alike (levelsTrying (stoppingWhere watch promise) r)
      (qualifierLevels r') := by
  rw [← levelsTrying_triedLevels]
  exact levelsTrying_alike h fun _ => stoppingWhere_alike watch h

theorem stopping_same (context : Context) : (stopping promise).Same context context :=
  .refl rfl fun h => absurd h Bool.false_ne_true

theorem ok_of_stopping {α : Type} {m m' : Parser α} (h : (stopping promise).lockstep.Alike m m')
    {context after : Context} {a : α} (hm : m context = .ok a after) :
    m' context = .ok a after := by
  have hresults := h.results context context (stopping_same context)
  rw [hm] at hresults
  cases hm' : m' context with
  | ok b last =>
    rw [hm'] at hresults
    obtain ⟨rfl,hsame⟩ := hresults
    rw [hsame.eq rfl rfl]
  | error fault last =>
    rw [hm'] at hresults
    exact hresults.elim

/-- Where the plain reading ends well, the watched one does so, too, or it stops. -/
theorem stopping_ok_or_stops {α : Type} {m m' : Parser α}
    (h : (stopping promise).lockstep.Alike m m') {context after : Context} {a : α}
    (hm' : m' context = .ok a after) :
    m context = .ok a after ∨ ∃ last, m context = .error (.broken promise) last := by
  have hresults := h.results context context (stopping_same context)
  rw [hm'] at hresults
  cases hm : m context with
  | ok b last =>
    rw [hm] at hresults
    obtain ⟨rfl,hsame⟩ := hresults
    exact .inl (by rw [hsame.eq rfl rfl])
  | error fault last =>
    rw [hm] at hresults
    rcases hresults with ⟨hcut,_⟩ | ⟨_,⟨⟩,rfl⟩
    · cases hcut
    · exact .inr ⟨last,rfl⟩

end

section
variable {v : Outlook} {n : Nat}

theorem over_of_within {context : Context} (hcontext : (v.parses n).Within context) :
    context.over (v.text ++ v.tail) = context.followedBy v.tail ∧
    context.over v.text = context := by
  obtain ⟨cursor,substitutions,recursionLimit,depth,templateArgsAllowed,speculative⟩ := context
  obtain ⟨passed,rest⟩ := cursor
  have htext : passed.reverse ++ rest = v.text := hcontext.1
  simp [Context.over,Context.followedBy,Cursor.followedBy,Cursor.position,← htext]

theorem rejectsLevels_iff {r : Rules} {context : Context} :
    rejectsLevels r context = true ↔ ∃ e after, e.category = .malformed ∧
      terminatedLevels r { context with speculative := true } = .error (.error e) after := by
  unfold rejectsLevels
  split
  · rename_i e after h
    constructor
    · exact fun he => ⟨e,after,by simpa using he,h⟩
    · rintro ⟨e',after',he,h'⟩
      rw [h] at h'
      cases h'
      simpa using he
  · rename_i hnot
    refine ⟨fun hfalse => absurd hfalse Bool.false_ne_true,?_⟩
    rintro ⟨e,after,_,h⟩
    exact (hnot e after h).elim

theorem triedLevels_of_rejects {attempt : Rules → Parser Node} {context : Context}
    (hoff : context.speculative = false)
    (h : rejectsLevels (Rules.levelsTrying attempt n) context = true) :
    triedLevels (Rules.levelsTrying attempt n) context context =
      singleLevel (Rules.levelsTrying attempt n) context := by
  obtain ⟨e,after,he,hfails⟩ := rejectsLevels_iff.mp h
  have hends := (terminatedLevels_advances (Rules.levels_advance n).paid).ends
    { context with speculative := true } trivial
  rw [← terminatedLevels_levelsTrying attempt n context,hfails] at hends
  exact triedLevels_of_malformed hoff he hfails hends.1

/-- A trial that is not misled comes to the same with and without the tail in view, or leads
astray. -/
theorem triedLevels_agrees (hloose : v.loose) {attempt : Rules → Parser Node}
    (h : (Rules.levelsTrying attempt n).Foresee v n) {context : Context}
    (hcontext : (v.parses n).Within context) (hoff : context.speculative = false)
    (hfair : rejectsLevels (Rules.levelsTrying attempt n) (context.followedBy v.tail) = true →
      rejectsLevels (Rules.levelsTrying attempt n) context = true) :
    (v.parses n).Agrees
      (triedLevels (Rules.levelsTrying attempt n) (context.followedBy v.tail)
        (context.followedBy v.tail))
      (triedLevels (Rules.levelsTrying attempt n) context context) := by
  have hoff' : (context.followedBy v.tail).speculative = false := hoff
  by_cases hrejects :
    rejectsLevels (Rules.levelsTrying attempt n) (context.followedBy v.tail) = true
  · rw [triedLevels_of_rejects hoff' hrejects,triedLevels_of_rejects hoff (hfair hrejects)]
    exact (singleLevel_sees h).agrees context hcontext trivial
  have htrial :=
    (terminatedLevels_sees h).agrees { context with speculative := true } hcontext trivial
  change (v.parses n).Agrees (terminatedLevels _
    { context.followedBy v.tail with speculative := true }) _ at htrial
  cases hwide : terminatedLevels (Rules.levelsTrying attempt n)
      { context.followedBy v.tail with speculative := true } with
  | error fault after =>
    have hfault : ¬fault.IsMalformed := by
      rintro ⟨e,rfl,he⟩
      exact hrejects (rejectsLevels_iff.mpr ⟨e,after,he,hwide⟩)
    rw [triedLevels_of_fault hfault hwide]
    exact .of_lost hloose trivial
  | ok name after =>
    rw [triedLevels_of_ok hwide]
    cases hnarrow : terminatedLevels (Rules.levelsTrying attempt n)
      { context with speculative := true } with
    | ok name' after' =>
      rw [triedLevels_of_ok hnarrow]
      rw [hwide,hnarrow] at htrial
      rcases htrial with ⟨rfl,rfl⟩ | hastray
      · exact .inl ⟨rfl,rfl⟩
      · exact .inr hastray
    | error fault after' =>
      rw [hwide,hnarrow] at htrial
      exact .of_lost hloose htrial

theorem levelsStopping_moves (watch : Rules → Context → Bool) (promise : Promise) :
    (v.parses n).Moves (levelsTrying (stoppingWhere watch promise)
      (Rules.levelsTrying (stoppingWhere watch promise) n)) fun d _ => 1 ≤ d := by
  intro context
  have hmoves := qualifierLevels_moves (v := v) n context
  cases hm : levelsTrying (stoppingWhere watch promise)
      (Rules.levelsTrying (stoppingWhere watch promise) n) context with
  | ok name after =>
    rw [ok_of_stopping
      (levelsStopping_alike watch (Rules.levelsStopping_alike watch n)) hm] at hmoves
    exact hmoves
  | error fault after => trivial

/-- A reading that stops in front of the first trial that is misled foresees any tail. -/
theorem Rules.levelsStopping_foresee (hloose : v.loose) (promise : Promise) (n : Nat) :
    (Rules.levelsTrying (stoppingWhere (misled (v.text ++ v.tail) v.text) promise)
      n).Foresee v n := by
  refine Rules.levelsTrying_foresee
    (fun n h => ⟨levelsStopping_moves _ promise,fun context hcontext _ => ?_⟩) n
  obtain ⟨hwide,hnarrow⟩ := over_of_within hcontext
  change (v.parses n).Agrees (Grammar.levelsTrying _ _ (context.followedBy v.tail)) _
  cases hs : context.speculative with
  | true =>
    have hlonger : (context.followedBy v.tail).speculative = true := hs
    rw [levelsTrying_on_trial hs,levelsTrying_on_trial hlonger]
    exact (terminatedLevels_sees h).agrees context hcontext trivial
  | false =>
    have hlonger : (context.followedBy v.tail).speculative = false := hs
    rw [levelsTrying_off_trial hs,levelsTrying_off_trial hlonger,stoppingWhere_apply,
      stoppingWhere_apply]
    -- Both readings look at the same two trials, so that both of them stop or neither does.
    have hsame : ∀ r, misled (v.text ++ v.tail) v.text r (context.followedBy v.tail) =
        misled (v.text ++ v.tail) v.text r context := fun _ => rfl
    rw [hsame]
    split
    · trivial
    · rename_i hfair
      refine triedLevels_agrees hloose h hcontext hs fun hrejects => ?_
      simpa [misled,hwide,hnarrow,hrejects] using hfair

end

end Grammar

end MangledNames
