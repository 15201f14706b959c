import MangledNames.Proofs.Grammar.HorizonWords
set_option autoImplicit false

/-!
Contexts in a text with and without a tail behind it, and the ways in which productions are put
together.
-/

namespace MangledNames

namespace Grammar

/-- The same state with more behind the text. -/
def Context.followedBy (tail : List Char) (context : Context) : Context :=
  { context with cursor := context.cursor.followedBy tail }

end Grammar

namespace Outlook

open Grammar

variable (v : Outlook)

def parses (n : Nat) : Horizon Context where
  rest context := context.cursor.rest
  tail := v.tail
  extend := Context.followedBy v.tail
  Onward := Context.Onward
  Within context := context.cursor.text = v.text ∧ context.recursionLimit = v.recursionLimit ∧
    context.levelsLeft = n
  loose := v.loose
  rest_extend _ := rfl
  refl := Context.Onward.refl
  trans := Context.Onward.trans
  shorter h := v.scans.shorter h.cursor
  within h hs := ⟨h.cursor.text_eq.symm.trans hs.1,h.recursionLimit.trans hs.2.1,by
    simpa only [Context.levelsLeft,h.recursionLimit,h.depth] using hs.2.2⟩

end Outlook

namespace Grammar

open Horizon

section
variable {v : Outlook} {n : Nat} {α β γ : Type} {post : Nat → α → Prop}

theorem moves_of_advances {levels k : Nat} {m : Parser α} (h : Advances levels k m) :
    (v.parses n).Moves m fun d _ => k ≤ d := fun context => by
  refine (h.ends context trivial).imp ?_ fun _ _ _ => trivial
  rintro a after ⟨honward,hreads⟩
  rw [← Cursor.distance_eq (v := v) honward.cursor] at hreads
  exact ⟨honward,hreads⟩

theorem scanning_sees {scan : Scan α} (h : v.scans.SeesTo scan post) :
    (v.parses n).SeesTo (liftM scan : Parser α) post := by
  refine ⟨fun context => ?_,fun context hcontext _ => ?_⟩
  · have hmoves := h.moves context.cursor
    change Ends _ _ (scanning scan context)
    unfold scanning
    cases hs : scan context.cursor with
    | ok a cursor =>
      rw [hs] at hmoves
      exact ⟨⟨hmoves.1,List.prefix_rfl,rfl,rfl,rfl,rfl⟩,hmoves.2⟩
    | error fault cursor => trivial
  · have hagrees := h.agrees context.cursor hcontext.1 trivial
    change (v.parses n).Agrees (scanning scan (context.followedBy v.tail)) (scanning scan context)
    change v.scans.Agrees (scan (context.followedBy v.tail).cursor) _ at hagrees
    unfold scanning
    cases hwide : scan (context.followedBy v.tail).cursor with
    | ok a cursor =>
      cases hnarrow : scan context.cursor with
      | ok b cursor' =>
        rw [hwide,hnarrow] at hagrees
        rcases hagrees with ⟨rfl,rfl⟩ | ⟨hloose,hastray⟩
        · exact .inl ⟨rfl,rfl⟩
        · exact .inr ⟨hloose,hastray⟩
      | error g cursor' =>
        rw [hwide,hnarrow] at hagrees
        exact hagrees
    | error f cursor =>
      cases hnarrow : scan context.cursor with
      | ok b cursor' =>
        rw [hwide,hnarrow] at hagrees
        exact hagrees
      | error g cursor' => trivial

theorem get_sees {q : Context → Parser α}
    (hsame : ∀ context, q (context.followedBy v.tail) = q context)
    (hq : ∀ context, (v.parses n).SeesTo (q context) post) :
    (v.parses n).SeesTo (get >>= q) post := by
  refine ⟨fun context => (hq context).moves context,fun context hcontext _ => ?_⟩
  rw [bind_apply,bind_apply,get_apply,get_apply]
  change (v.parses n).Agrees (q (context.followedBy v.tail) _) _
  rw [hsame]
  exact (hq context).agrees context hcontext trivial

theorem here_sees {q : Cursor → Parser α} (hsame : ∀ c, q (c.followedBy v.tail) = q c)
    (hq : ∀ c, (v.parses n).SeesTo (q c) post) : (v.parses n).SeesTo (here >>= q) post :=
  get_sees (q := fun context => q context.cursor) (fun _ => hsame _) fun _ => hq _

/-- What hangs on no more of the text than is read. -/
theorem sees_of_length {m : Parser α} {k : Nat} (hmoves : (v.parses n).Moves m fun d _ => k ≤ d)
    (hagrees : ∀ context, (v.parses n).Within context → k ≤ context.cursor.rest.length →
      (v.parses n).Agrees (m (context.followedBy v.tail)) (m context)) : (v.parses n).Sees k m := by
  refine ⟨hmoves,fun context hcontext _ => ?_⟩
  by_cases hlength : k ≤ context.cursor.rest.length
  · exact hagrees context hcontext hlength
  · exact agrees_of_moves hmoves (Nat.lt_of_not_le hlength)

theorem here_moves {q : Cursor → Parser α} (h : ∀ c, (v.parses n).Moves (q c) post) :
    (v.parses n).Moves (here >>= q) post := fun context => h context.cursor context

theorem here_apply {q : Cursor → Parser α} {m : Parser α} {context : Context}
    (h : q context.cursor = m) : (here >>= q) context = m context := congrFun h context

theorem here_sees_of {q : Cursor → Parser α} (hmoves : ∀ c, (v.parses n).Moves (q c) post)
    (hagrees : ∀ context, (v.parses n).Within context → (v.parses n).Agrees
      (q (context.cursor.followedBy v.tail) (context.followedBy v.tail))
      (q context.cursor context)) :
    (v.parses n).SeesTo (here >>= q) post :=
  ⟨here_moves hmoves,fun context hcontext _ => hagrees context hcontext⟩

theorem fail_sees {e : DemangleError} : (v.parses n).SeesTo (fail e : Parser α) post := .throw

theorem unexpected_sees (production : String) :
    (v.parses n).SeesTo (unexpected production : Parser α) post :=
  ⟨fun _ => trivial,fun _ _ _ => trivial⟩

theorem fail_moves {e : DemangleError} : (v.parses n).Moves (fail e : Parser α) post :=
  fail_sees.moves

theorem unexpected_moves (production : String) :
    (v.parses n).Moves (unexpected production : Parser α) post :=
  (unexpected_sees production).moves

theorem done_sees (a : α) : (v.parses n).Sees 0 (pure a : Parser α) := .pure (Nat.le_refl 0)

theorem build_sees (node : Node) : (v.parses n).Sees 0 (build node) :=
  .ite (fun _ => done_sees node) fun _ => .throw

theorem remember_sees (node : Node) : (v.parses n).Sees 0 (remember node) :=
  ⟨fun _ => ⟨⟨.refl _,⟨[node],by simp⟩,rfl,rfl,rfl,rfl⟩,Nat.zero_le _⟩,fun _ _ _ => .inl ⟨rfl,rfl⟩⟩

theorem remembered_sees {component : Parser Node} {k : Nat} {start : Context → Prop}
    (h : (v.parses n).SeesFrom start component fun d _ => k ≤ d) :
    (v.parses n).SeesFrom start (remembered component) fun d _ => k ≤ d :=
  Sees.first h fun node => Sees.first (remember_sees node) fun _ => done_sees node

/-- A run between two changes of the context, which may use another level. -/
theorem around_sees {k : Nat} (enter : Context → Context) (leave : Context → Context → Context)
    {body : Parser α} (hcursor : ∀ context, (enter context).cursor = context.cursor)
    (hcursor' : ∀ context after, (leave context after).cursor = after.cursor)
    (hwithin : ∀ context, (v.parses k).Within context → (v.parses n).Within (enter context))
    (hextend : ∀ context, enter (context.followedBy v.tail) = (enter context).followedBy v.tail)
    (hextend' : ∀ context after, leave (context.followedBy v.tail) (after.followedBy v.tail) =
      (leave context after).followedBy v.tail)
    (honward : ∀ context after, (enter context).Onward after → context.Onward (leave context after))
    (h : (v.parses n).SeesTo body post) : (v.parses k).SeesTo (around enter leave body) post := by
  refine ⟨fun context => ?_,fun context hcontext _ => ?_⟩
  · have hmoves := h.moves (enter context)
    unfold around
    cases hbody : body (enter context) with
    | ok a after =>
      rw [hbody] at hmoves
      refine ⟨honward _ _ hmoves.1,?_⟩
      have hdistance := hmoves.2
      simp only [Horizon.distance,Outlook.parses,hcursor,hcursor'] at hdistance ⊢
      exact hdistance
    | error fault after => trivial
  · have hagrees := h.agrees (enter context) (hwithin context hcontext) trivial
    change (v.parses k).Agrees (around enter leave body (context.followedBy v.tail)) _
    change (v.parses n).Agrees (body ((enter context).followedBy v.tail)) _ at hagrees
    unfold around
    rw [hextend]
    -- To leave does not change the text, so that what is lost inside stays lost.
    have lost : ∀ after, (v.parses n).Astray after →
        (v.parses k).Astray (leave (context.followedBy v.tail) after) := by
      intro after hafter
      simp only [Horizon.Astray,Outlook.parses,hcursor'] at hafter ⊢
      exact hafter
    cases hwide : body ((enter context).followedBy v.tail) with
    | ok a after =>
      cases hnarrow : body (enter context) with
      | ok b after' =>
        rw [hwide,hnarrow] at hagrees
        rcases hagrees with ⟨rfl,rfl⟩ | ⟨hloose,hlost⟩
        · exact .inl ⟨rfl,hextend' context after'⟩
        · exact .inr ⟨hloose,lost after hlost⟩
      | error g after' =>
        rw [hwide,hnarrow] at hagrees
        exact lost after hagrees
    | error f after =>
      cases hnarrow : body (enter context) with
      | ok b after' =>
        rw [hwide,hnarrow] at hagrees
        exact hagrees
      | error g after' => trivial

theorem allowingTemplateArgs_sees (allowed : Bool) {body : Parser α}
    (h : (v.parses n).SeesTo body post) :
    (v.parses n).SeesTo (allowingTemplateArgs allowed body) post :=
  around_sees (fun context => { context with templateArgsAllowed := allowed })
    (fun context after => { after with templateArgsAllowed := context.templateArgsAllowed })
    (fun _ => rfl) (fun _ _ => rfl) (fun _ h => h) (fun _ => rfl) (fun _ _ => rfl)
    (fun _ _ ht => ⟨ht.cursor,ht.entries,ht.recursionLimit,ht.depth,rfl,ht.speculative⟩) h

theorem nested_sees {body : Parser α} (h : (v.parses n).SeesTo body post) :
    (v.parses (n + 1)).SeesTo (nested body) post :=
  around_sees (fun context => { context with depth := context.depth + 1 })
    (fun context after => { after with depth := context.depth })
    (fun _ => rfl) (fun _ _ => rfl)
    (fun context hcontext => ⟨hcontext.1,hcontext.2.1,by
      have hlevels := hcontext.2.2
      simp only [Context.levelsLeft] at hlevels ⊢
      omega⟩)
    (fun _ => rfl) (fun _ _ => rfl)
    (fun _ _ ht =>
      ⟨ht.cursor,ht.entries,ht.recursionLimit,rfl,ht.templateArgsAllowed,ht.speculative⟩)
    h

/-- What a round reads: something if another one follows, and so much if it is the last. -/
def RoundReads (k d : Nat) : Round γ β → Prop
  | .again _ => 1 ≤ d
  | .done _ => k ≤ d

section
variable {round : γ → Parser (Round γ β)} {k : Nat}

theorem repeatWithin_moves
    (hround : ∀ a, (v.parses n).Moves (round a) (RoundReads k)) (bound : List Char) (a : γ) :
    (v.parses n).Moves (repeatWithin round bound a) fun d _ => k ≤ d := by
  induction bound generalizing a with
  | nil =>
    intro context
    unfold repeatWithin
    refine (hround a context).bind ?_
    rintro (a | b) t ⟨hct,hreads⟩
    · trivial
    · exact ⟨hct,hreads⟩
  | cons x bound ih =>
    intro context
    unfold repeatWithin
    refine (hround a context).bind ?_
    rintro (a | b) t ⟨hct,hreads⟩
    · refine (ih a t).imp ?_ fun _ _ _ => trivial
      rintro b u ⟨htu,_⟩
      have hadd := distance_add hct htu
      have hreads : 1 ≤ (v.parses n).distance context t := hreads
      exact ⟨hct.trans htu,by omega⟩
    · exact ⟨hct,hreads⟩

def afterRound (round : γ → Parser (Round γ β)) (bound : List Char) : Round γ β → Parser β
  | .done b => pure b
  | .again a =>
    match bound with
    | [] => throw (.broken .itemConsumes)
    | _ :: bound => repeatWithin round bound a

theorem repeatWithin_eq (bound : List Char) (a : γ) :
    repeatWithin round bound a = round a >>= afterRound round bound := by
  unfold repeatWithin
  refine congrArg _ (funext fun result => ?_)
  cases result with
  | done b => rfl
  | again a => cases bound <;> rfl

theorem afterRound_moves
    (hround : ∀ a, (v.parses n).Moves (round a) (RoundReads k)) (bound : List Char)
    (result : Round γ β) : (v.parses n).Moves (afterRound round bound result) fun d _ =>
      (∃ a, result = .again a) → k ≤ d := by
  intro context
  cases result with
  | done b => exact ⟨.refl context,by simp⟩
  | again a =>
    cases bound with
    | nil => trivial
    | cons x bound =>
      exact (repeatWithin_moves hround bound a context).imp (fun _ _ ht => ⟨ht.1,fun _ => ht.2⟩)
        fun _ _ _ => trivial

/-- A round with the tail in view agrees with the one without it, or parts from it at the end of the
text, where whatever follows leads astray. -/
def AgreesOrLeads (v : Outlook) (n k : Nat) (round : Parser (Round γ β))
    (context : Context) : Prop :=
  (v.parses n).Agrees (round (context.followedBy v.tail)) (round context) ∨
    v.loose ∧ 1 ≤ k ∧ ∃ a after, round (context.followedBy v.tail) = .ok (.again a) after ∧
      after.cursor.rest.length ≤ v.tail.length

theorem repeatWithin_step
    (hround : ∀ a, (v.parses n).Moves (round a) (RoundReads k)) {bound bound' : List Char} {a : γ}
    {context : Context} (h : AgreesOrLeads v n k (round a) context)
    (hnext : ∀ a' after, round a context = .ok (.again a') after →
      (v.parses n).Agrees (afterRound round bound' (.again a') (after.followedBy v.tail))
        (afterRound round bound (.again a') after)) :
    (v.parses n).Agrees (repeatWithin round bound' a (context.followedBy v.tail))
      (repeatWithin round bound a context) := by
  rw [repeatWithin_eq,repeatWithin_eq,bind_apply,bind_apply]
  have moves := afterRound_moves hround bound'
  rcases h with h | ⟨hloose,hk,a',after,hwide,hedge⟩
  · cases hwide : round a (context.followedBy v.tail) with
    | ok result after =>
      cases hnarrow : round a context with
      | ok result' after' =>
        rw [hwide,hnarrow] at h
        rcases h with ⟨rfl,rfl⟩ | ⟨hloose,hlost⟩
        · cases result with
          | done b => exact .inl ⟨rfl,rfl⟩
          | again a' => exact hnext a' after' hnarrow
        · refine .of_lost hloose ((moves result after).imp ?_ fun _ _ _ => trivial)
          exact fun _ last ht => hlost.onward ht.1
      | error g after' =>
        rw [hwide,hnarrow] at h
        refine .of_error ((moves result after).imp ?_ fun _ _ _ => trivial)
        exact fun _ last ht => Astray.onward h ht.1
    | error f after =>
      cases hnarrow : round a context with
      | ok result' after' =>
        rw [hwide,hnarrow] at h
        exact .of_lost h trivial
      | error g after' => trivial
  -- The round goes on with the tail in view only: whatever it reads next ends in the tail.
  · rw [hwide]
    refine .of_lost hloose ((moves (.again a') after).imp ?_ fun _ _ _ => trivial)
    rintro b last ⟨honward,hreads⟩
    have hreads := hreads ⟨a',rfl⟩
    have hshorter := (v.parses n).shorter honward
    simp only [Horizon.distance,Horizon.Astray,Outlook.parses] at hreads hshorter ⊢
    omega

theorem repeatWithin_agrees
    (hround : ∀ a, (v.parses n).Moves (round a) (RoundReads k))
    (hagrees : ∀ a context, (v.parses n).Within context → AgreesOrLeads v n k (round a) context)
    {bound bound' : List Char} {a : γ} {context : Context} (hcontext : (v.parses n).Within context)
    (hbound : context.cursor.rest.length ≤ bound.length)
    (hbound' : context.cursor.rest.length ≤ bound'.length) :
    (v.parses n).Agrees (repeatWithin round bound' a (context.followedBy v.tail))
      (repeatWithin round bound a context) := by
  have moved : ∀ {a a' context after}, round a context = .ok (.again a') after →
      context.Onward after ∧ after.cursor.rest.length < context.cursor.rest.length := by
    intro a a' context after hnarrow
    have hmoves := hround a context
    rw [hnarrow] at hmoves
    have hreads : 1 ≤ (v.parses n).distance context after := hmoves.2
    simp only [Horizon.distance,Outlook.parses] at hreads
    exact ⟨hmoves.1,by omega⟩
  -- On the bound. The tail makes the other bound longer, but a round that goes on has read
  -- something of the text, so that either bound covers what is left of it.
  induction bound generalizing bound' a context with
  | nil =>
    refine repeatWithin_step hround (hagrees a context hcontext) fun a' after hnarrow => ?_
    have hlt := (moved hnarrow).2
    simp only [List.length_nil] at hbound
    omega
  | cons x bound ih =>
    refine repeatWithin_step hround (hagrees a context hcontext) fun a' after hnarrow => ?_
    obtain ⟨honward,hlt⟩ := moved hnarrow
    cases bound' with
    | nil =>
      simp only [List.length_nil] at hbound'
      omega
    | cons y bound' =>
      simp only [List.length_cons] at hbound hbound'
      exact ih ((v.parses n).within honward hcontext) (by omega) (by omega)

/-- A repetition reads what its last round reads. -/
theorem repeatRound_sees
    (hround : ∀ a, (v.parses n).Moves (round a) (RoundReads k))
    (hagrees : ∀ a context, (v.parses n).Within context → AgreesOrLeads v n k (round a) context)
    (a : γ) : (v.parses n).Sees k (repeatRound round a) :=
  ⟨fun context => repeatWithin_moves hround context.cursor.rest a context,
    fun context hcontext _ => repeatWithin_agrees hround hagrees hcontext (Nat.le_refl _)
      (by simp [Context.followedBy,Cursor.followedBy,Outlook.parses])⟩

/-- A round that may part at the end of the text from the one without the tail, and reads so
much. -/
structure SeesRound (v : Outlook) (n k : Nat) (round : Parser (Round γ β)) : Prop where
  moves : (v.parses n).Moves round fun d _ => k ≤ d
  agrees : ∀ context, (v.parses n).Within context → AgreesOrLeads v n 1 round context

namespace SeesRound

theorem of_sees {round : Parser (Round γ β)} (h : (v.parses n).Sees k round) :
    SeesRound v n k round :=
  ⟨h.moves,fun context hcontext => .inl (h.agrees context hcontext trivial)⟩

theorem le {round : Parser (Round γ β)} {l : Nat} (h : SeesRound v n k round) (hl : l ≤ k) :
    SeesRound v n l round :=
  ⟨fun context => (h.moves context).imp (fun _ _ ht => ⟨ht.1,Nat.le_trans hl ht.2⟩)
    fun _ _ ht => ht,
    h.agrees⟩

theorem ite {c : Prop} [Decidable c] {found missing : Parser (Round γ β)}
    (h₁ : c → SeesRound v n k found) (h₂ : ¬c → SeesRound v n k missing) :
    SeesRound v n k (if c then found else missing) := by
  split
  · exact h₁ ‹_›
  · exact h₂ ‹_›

theorem bind {m : Parser α} {q : α → Parser (Round γ β)} (h : (v.parses n).SeesTo m post)
    (hq : ∀ d a, post d a → SeesRound v n (k - d) (q a)) : SeesRound v n k (m >>= q) := by
  refine ⟨fun context => Ends.bind (h.moves context) ?_,fun context hcontext => ?_⟩
  · rintro a t ⟨hct,ha⟩
    refine ((hq _ a ha).moves t).imp ?_ fun _ _ _ => trivial
    rintro b u ⟨htu,hb⟩
    have hadd := distance_add hct htu
    exact ⟨hct.trans htu,by omega⟩
  · have hmoves : ∀ d a, post d a → (v.parses n).Moves (q a) fun _ _ => True := fun d a ha t =>
      ((hq d a ha).moves t).imp (fun _ _ ht => ⟨ht.1,trivial⟩) fun _ _ _ => trivial
    rcases h.same_or_agrees hcontext trivial hmoves with ⟨a,t,hnarrow,hwide⟩ | hagrees
    · have hct := h.onward hnarrow
      have hround := (hq _ a hct.2).agrees t ((v.parses n).within hct.1 hcontext)
      have hwide : m (context.followedBy v.tail) = .ok a (t.followedBy v.tail) := hwide
      simpa only [AgreesOrLeads,bind_apply,hnarrow,hwide] using hround
    · exact .inl hagrees

theorem here {q : Cursor → Parser (Round γ β)} (hsame : ∀ c, q (c.followedBy v.tail) = q c)
    (hq : ∀ c, SeesRound v n k (q c)) : SeesRound v n k (here >>= q) := by
  refine ⟨fun context => (hq context.cursor).moves context,fun context hcontext => ?_⟩
  have hround := (hq context.cursor).agrees context hcontext
  simp only [AgreesOrLeads] at hround ⊢
  change (v.parses n).Agrees (q (context.cursor.followedBy v.tail) _) (q context.cursor context) ∨
    v.loose ∧ 1 ≤ 1 ∧ ∃ a after, q (context.cursor.followedBy v.tail) _ = _ ∧ _
  rwa [hsame]

end SeesRound

theorem repeatRound_sees_of_leads {round : γ → Parser (Round γ β)}
    (hround : ∀ a, SeesRound v n 1 (round a)) (a : γ) : (v.parses n).Sees 1 (repeatRound round a) :=
  repeatRound_sees (fun a context => ((hround a).moves context).imp
    (fun result _ ht => ⟨ht.1,by cases result <;> exact ht.2⟩) fun _ _ ht => ht)
    (fun a => (hround a).agrees) a

theorem repeatRound_sees_of_rounds (hround : ∀ a, (v.parses n).SeesTo (round a) (RoundReads k))
    (a : γ) : (v.parses n).Sees k (repeatRound round a) :=
  repeatRound_sees (fun a => (hround a).moves) (fun a context hcontext =>
    .inl ((hround a).agrees context hcontext trivial)) a

end

section
variable {listEnd : Parser Bool} {item : Parser α}

theorem itemsUntil_sees (hend : (v.parses n).SeesTo listEnd fun d found => found = true → 1 ≤ d)
    (hitem : (v.parses n).Sees 1 item) : (v.parses n).Sees 1 (itemsUntil listEnd item) := by
  refine repeatRound_sees_of_rounds (fun items => ?_) []
  refine hend.bind fun d found hd => .ite (fun hfound => ?_) fun _ => ?_
  · have hreads := hd hfound
    exact .pure hreads
  · refine hitem.bind fun e a he => .pure ?_
    change 1 ≤ d + (e + 0)
    omega

theorem itemsToE_sees (hitem : (v.parses n).Sees 1 item) : (v.parses n).Sees 1 (itemsToE item) :=
  itemsUntil_sees (scanning_sees (Cursor.consume_sees "E" (by decide))) hitem

theorem itemsUntil_sees_of_look {f : List Char → Bool}
    (hlook : ∀ context, listEnd context = .ok (f context.cursor.rest) context)
    (hedge : ∀ rest, f (rest ++ v.tail) = f rest ∨
      v.loose ∧ f (rest ++ v.tail) = false ∧ rest = [])
    (hitem : (v.parses n).Sees 1 item) : (v.parses n).Sees 0 (itemsUntil listEnd item) := by
  have another : ∀ items : List α, (v.parses n).SeesTo
      (do return .again ((← item) :: items) : Parser (Round (List α) (List α)))
      fun d result => RoundReads 0 d result ∧ 1 ≤ d := fun items =>
    hitem.bind fun d a hd => .pure ⟨hd,hd⟩
  refine repeatRound_sees_of_rounds (fun items => ?_) []
  refine look_sees hlook (fun found => .of_seesTo (.ite (fun _ => ?_) fun _ => ?_))
    fun context _ => ?_
  · exact .pure (Nat.zero_le _)
  · exact (another items).imp fun _ _ h => h.1
  · rcases hedge context.cursor.rest with h | ⟨hloose,hfalse,hrest⟩
    · exact .inl h
    · refine .inr (.inr ⟨hloose,?_⟩)
      change (v.parses n).Moves (ite (f (context.cursor.rest ++ v.tail) = true) _ _) _
      have hrest : (v.parses n).rest context = [] := hrest
      rw [hfalse,hrest]
      exact ((another items).imp fun _ _ h => h.2).moves

end

section
variable {k : Nat}

theorem prefix_edge (literal : List Char) (hstop : literal.any isStop = false)
    (rest : List Char) : literal.isPrefixOf (rest ++ v.tail) = literal.isPrefixOf rest ∨
      v.loose ∧ literal.isPrefixOf (rest ++ v.tail) = true ∧ rest.length < literal.length := by
  cases hnarrow : literal.isPrefixOf rest with
  | true =>
    rw [List.isPrefixOf_iff_prefix] at hnarrow
    exact .inl (List.isPrefixOf_iff_prefix.mpr (hnarrow.trans (List.prefix_append _ _)))
  | false =>
    cases hwide : literal.isPrefixOf (rest ++ v.tail) with
    | false => exact .inl rfl
    | true =>
      obtain ⟨more,hmore⟩ := List.isPrefixOf_iff_prefix.mp hwide
      have hnot : ¬literal <+: rest := by
        rw [← List.isPrefixOf_iff_prefix,hnarrow]
        decide
      obtain ⟨hlength,x,hx,hhead⟩ := Cursor.crosses hmore.symm hnot
      have hsum := congrArg List.length hmore
      simp only [List.length_append] at hsum
      exact .inr ⟨v.loose_of_mem hstop hx hhead,rfl,by omega⟩

theorem prefix_same {literal rest : List Char} (tail : List Char)
    (h : literal.length ≤ rest.length) :
    literal.isPrefixOf (rest ++ tail) = literal.isPrefixOf rest := by
  rw [Bool.eq_iff_iff,List.isPrefixOf_iff_prefix,List.isPrefixOf_iff_prefix]
  exact ⟨fun hwide => List.prefix_of_prefix_length_le hwide (List.prefix_append _ _) h,
    fun hnarrow => hnarrow.trans (List.prefix_append _ _)⟩

theorem peek_edge (ofClass : Char → Bool) (hstop : ∀ x, isStop x = true → ofClass x = false)
    {rest : List Char} {distance : Nat} (h : distance ≤ rest.length) :
    (rest ++ v.tail)[distance]?.any ofClass = rest[distance]?.any ofClass ∨
      v.loose ∧ (rest ++ v.tail)[distance]?.any ofClass = true ∧ rest.length = distance := by
  rcases Nat.lt_or_eq_of_le h with hlt | rfl
  · exact .inl (by rw [List.getElem?_append_left hlt])
  · rw [List.getElem?_append_right (Nat.le_refl _),Nat.sub_self,List.getElem?_eq_none
      (Nat.le_refl _)]
    cases htail : v.tail with
    | nil => exact .inl rfl
    | cons x tail =>
      cases hx : ofClass x with
      | false => exact .inl (by simp [hx])
      | true =>
        refine .inr ⟨v.loose_of_head (x := x) (by simp [htail]) ?_,by simp [hx],rfl⟩
        cases hstops : isStop x with
        | false => rfl
        | true => simp [hstop x hstops] at hx

/-- A literal that is seen only with the tail in view leads astray, if it is read afterwards. -/
theorem lookedAt_sees {literal : String} {q : Bool → Parser α}
    (hstop : literal.toList.any isStop = false) (htrue : (v.parses n).Sees k (q true))
    {l : Nat} (hfalse : (v.parses n).Sees l (q false)) (hk : literal.toList.length ≤ k ∧ l ≤ k) :
    (v.parses n).Sees l (liftM (Cursor.lookingAt literal) >>= q) := by
  refine look_sees (f := fun rest => literal.toList.isPrefixOf rest)
    (fun _ => rfl) (fun found => .of_seesTo ?_) fun context _ => ?_
  · cases found with
    | true => exact Sees.le htrue hk.2
    | false => exact hfalse
  · rcases prefix_edge _ hstop context.cursor.rest with h | ⟨hloose,hwide,hlength⟩
    · exact .inl h
    · refine .inr (.inr ⟨hloose,?_⟩)
      change (v.parses n).Moves (q (literal.toList.isPrefixOf (context.cursor.rest ++ v.tail))) _
      rw [hwide]
      exact (htrue.imp fun _ _ hd => Nat.lt_of_lt_of_le hlength (Nat.le_trans hk.1 hd)).moves

theorem lookedAtIf_sees {literal : String} (allowed : Bool) {found missing : Parser α} {l : Nat}
    (hstop : literal.toList.any isStop = false) (hfound : (v.parses n).Sees k found)
    (hmissing : (v.parses n).Sees l missing) (hk : literal.toList.length ≤ k ∧ l ≤ k) :
    (v.parses n).Sees l (do
      let isNext ← Cursor.lookingAt literal
      if allowed && isNext then found else missing) := by
  cases allowed with
  | true => exact lookedAt_sees hstop hfound hmissing hk
  | false =>
    exact look_sees (f := fun rest => literal.toList.isPrefixOf rest) (fun _ => rfl)
      (fun _ => .of_seesTo hmissing) fun _ _ => .inr (.inl rfl)

/-- A look at a literal no longer than what is read afterwards in any case. -/
theorem lookedAhead_sees {literal : String} {q : Bool → Parser α}
    (h : ∀ found, (v.parses n).Sees k (q found)) (hk : literal.toList.length ≤ k) :
    (v.parses n).Sees k (liftM (Cursor.lookingAt literal) >>= q) :=
  lookAhead_sees (f := fun rest => literal.toList.isPrefixOf rest) (fun _ => rfl)
    (fun _ => prefix_same v.tail) (fun found => .of_seesTo (h found)) hk

theorem peekedAhead_sees {ofClass : Char → Bool} {distance : Nat} {q : Bool → Parser α}
    (h : ∀ found, (v.parses n).Sees k (q found)) (hk : distance < k) :
    (v.parses n).Sees k (liftM (Cursor.peekIs ofClass distance) >>= q) :=
  lookAhead_sees (f := fun rest => rest[distance]?.any ofClass) (k := distance + 1) (fun _ => rfl)
    (fun _ hlength => by simp only [List.getElem?_append_left (show distance < _ from hlength)])
    (fun found => .of_seesTo (h found)) hk

theorem peeked_sees {distance : Nat} {q : Option Char → Parser α}
    (h : ∀ next, (v.parses n).SeesFrom
        (fun context => context.cursor.rest[distance]? = next) (q next)
      fun d _ => k ≤ d) (hk : distance < k) :
    (v.parses n).Sees k (liftM (Cursor.peek distance) >>= q) :=
  lookAhead_sees (f := fun rest => rest[distance]?) (k := distance + 1) (fun _ => rfl)
    (fun _ hlength => List.getElem?_append_left hlength)
    (fun next => ⟨(h next).moves,fun s hs hstart => (h next).agrees s hs hstart.2⟩) hk

theorem SeesRound.lookedAhead {literal : String} {q : Bool → Parser (Round γ β)}
    (h : ∀ found, SeesRound v n k (q found)) (hk : literal.toList.length ≤ k) :
    SeesRound v n k (liftM (Cursor.lookingAt literal) >>= q) := by
  have moves : (v.parses n).Moves (liftM (Cursor.lookingAt literal) >>= q) fun d _ => k ≤ d :=
    fun context => (h (literal.toList.isPrefixOf context.cursor.rest)).moves context
  refine ⟨moves,fun context hcontext => ?_⟩
  by_cases hlength : k ≤ context.cursor.rest.length
  · have hround := (h (literal.toList.isPrefixOf context.cursor.rest)).agrees context hcontext
    have hsame : (liftM (Cursor.lookingAt literal) >>= q) (context.followedBy v.tail) =
        q (literal.toList.isPrefixOf context.cursor.rest) (context.followedBy v.tail) := by
      rw [← prefix_same v.tail (Nat.le_trans hk hlength)]
      rfl
    simp only [AgreesOrLeads] at hround ⊢
    rw [hsame]
    exact hround
  · exact .inl (agrees_of_moves moves (Nat.lt_of_not_le hlength))

end

end

end Grammar

end MangledNames
