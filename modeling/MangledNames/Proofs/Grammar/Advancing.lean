import MangledNames.Proofs.Grammar.Reading
set_option autoImplicit false

/-!
Reading from any context at all, with whatever entries in its table. What is read moves on and keeps
what was there, and four levels of nesting for each character are all that it can use up.
-/

namespace MangledNames

theorem Fault.IsMalformed.not_isLimit {fault : Fault} (h : fault.IsMalformed) : ¬fault.IsLimit := by
  rintro ⟨e,rfl,he⟩
  obtain ⟨_,⟨rfl⟩,hmalformed⟩ := h
  rw [he] at hmalformed
  cases hmalformed

theorem Substitutions.category_of_resolve {t : Substitutions} {index : Int} {offset : Nat}
    {e : DemangleError} (h : t.resolve index offset = .error e) : e.category = .malformed := by
  unfold resolve at h
  split at h
  · cases h
    rfl
  · split at h
    · cases h
    · cases h
      rfl

namespace Grammar

/-- What a run may end with when it has read so many characters: repetitions end with the text, and
the recursion limit cuts off only what has used up its levels. -/
structure Affordable (levels distance : Nat) (fault : Fault) : Prop where
  limit : fault.IsLimit → levels ≤ 4 * distance
  items : fault ≠ .broken .itemConsumes

theorem Affordable.of_isMalformed {levels distance : Nat} {fault : Fault}
    (h : fault.IsMalformed) : Affordable levels distance fault := by
  refine ⟨fun hlimit => absurd hlimit h.not_isLimit,?_⟩
  rintro rfl
  obtain ⟨_,h,_⟩ := h
  cases h

theorem Affordable.of_broken {levels distance : Nat} {promise : Promise}
    (h : promise ≠ .itemConsumes) : Affordable levels distance (.broken promise) := by
  refine ⟨?_,fun hbroken => h (Fault.broken.inj hbroken)⟩
  rintro ⟨_,hbroken,_⟩
  cases hbroken

theorem Affordable.mono {levels levels' distance distance' : Nat} {fault : Fault}
    (h : Affordable levels distance fault)
    (hle : levels ≤ 4 * distance → levels' ≤ 4 * distance') : Affordable levels' distance' fault :=
  ⟨fun hlimit => hle (h.limit hlimit),h.items⟩

/-- From the contexts in `start` a run moves on, and ends with a value and a distance as `post` says
or with a fault that it can afford. -/
structure AdvancesFrom {α : Type} (start : Context → Prop) (levels : Nat) (m : Parser α)
    (post : Nat → α → Prop) : Prop where
  ends : ∀ context, start context → Ends
    (fun a t => context.Onward t ∧ post (t.cursor.position - context.cursor.position) a)
    (fun f t => context.Onward t ∧
      Affordable levels (t.cursor.position - context.cursor.position) f) (m context)

abbrev AdvancesTo {α : Type} (levels : Nat) (m : Parser α) (post : Nat → α → Prop) : Prop :=
  AdvancesFrom (fun _ => True) levels m post

/-- From every context a run moves on by at least `n` characters. -/
abbrev Advances {α : Type} (levels n : Nat) (m : Parser α) : Prop :=
  AdvancesTo levels m fun d _ => n ≤ d

section
variable {α β : Type} {start : Context → Prop} {levels n : Nat}

namespace AdvancesFrom

variable {m : Parser α} {q : α → Parser β} {post post' : Nat → α → Prop} {post'' : Nat → β → Prop}

theorem imp {levels' : Nat} (h : AdvancesFrom start levels m post)
    (hpost : ∀ d a, post d a → post' d a) (hle : levels' ≤ levels) :
    AdvancesFrom start levels' m post' :=
  ⟨fun context hc => (h.ends context hc).imp (fun a _ ht => ⟨ht.1,hpost _ a ht.2⟩)
    fun _ _ ht => ⟨ht.1,ht.2.mono (Nat.le_trans hle)⟩⟩

theorem of_advancesTo (h : AdvancesTo levels m post) : AdvancesFrom start levels m post :=
  ⟨fun context _ => h.ends context trivial⟩

theorem pure {a : α} (h : post 0 a) : AdvancesTo levels (Pure.pure a) post :=
  ⟨fun context _ => ⟨.refl context,by simpa using h⟩⟩

theorem throw {fault : Fault} (h : Affordable levels 0 fault) :
    AdvancesTo levels (throw fault : Parser α) post :=
  ⟨fun context _ => ⟨.refl context,by simpa using h⟩⟩

/-- What was read pays for levels of what follows. -/
theorem bind (h : AdvancesFrom start levels m post)
    (hq : ∀ d a, post d a → AdvancesTo (levels - 4 * d) (q a) fun e b => post'' (d + e) b) :
    AdvancesFrom start levels (m >>= q) post'' := by
  refine ⟨fun context hc => Ends.bind (h.ends context hc) ?_⟩
  rintro a t ⟨hct,ha⟩
  have hle := hct.cursor.position_le
  refine ((hq _ a ha).ends t trivial).imp ?_ ?_
  · rintro b u ⟨htu,hb⟩
    have hle' := htu.cursor.position_le
    rw [show t.cursor.position - context.cursor.position +
      (u.cursor.position - t.cursor.position) = u.cursor.position - context.cursor.position by
        omega] at hb
    exact ⟨hct.trans htu,hb⟩
  · rintro f u ⟨htu,hf⟩
    have hle' := htu.cursor.position_le
    exact ⟨hct.trans htu,hf.mono (by omega)⟩

theorem ite {c : Prop} [Decidable c] {m₁ m₂ : Parser α} (h₁ : c → AdvancesFrom start levels m₁ post)
    (h₂ : ¬c → AdvancesFrom start levels m₂ post) :
    AdvancesFrom start levels (if c then m₁ else m₂) post := by
  split
  · exact h₁ ‹_›
  · exact h₂ ‹_›

theorem lower {levels' : Nat} (h : AdvancesFrom start levels m post) (hle : levels' ≤ levels) :
    AdvancesFrom start levels' m post := h.imp (fun _ _ ha => ha) hle

theorem rest (h : Advances levels n m) : Advances levels 0 m :=
  h.imp (fun _ _ _ => Nat.zero_le _) (Nat.le_refl _)

theorem covers {budget : Nat} (h : AdvancesFrom start budget m fun d _ => 1 ≤ d)
    (hbudget : budget ≤ levels + 4) (hq : ∀ a, Advances levels 0 (q a)) :
    AdvancesFrom start budget (m >>= q) fun d _ => 1 ≤ d :=
  h.bind fun _ a hd => (hq a).imp (fun _ _ _ => by omega) (by omega)

theorem pays (h : AdvancesFrom start (levels + 4) m fun d _ => 1 ≤ d)
    (hq : ∀ a, Advances levels 0 (q a)) :
    AdvancesFrom start (levels + 4) (m >>= q) fun d _ => 1 ≤ d :=
  h.covers (Nat.le_refl _) hq

theorem first (h : AdvancesFrom start levels m fun d _ => n ≤ d)
    (hq : ∀ a, Advances levels 0 (q a)) :
    AdvancesFrom start levels (m >>= q) fun d _ => n ≤ d :=
  h.bind fun _ a hd => (hq a).imp (fun _ _ _ => by omega) (Nat.sub_le ..)

theorem andThen (h : Advances levels 0 m) (hq : ∀ a, Advances levels n (q a)) :
    Advances levels n (m >>= q) :=
  h.bind fun _ a _ => (hq a).imp (fun _ _ _ => by omega) (Nat.sub_le ..)

theorem map {f : α → β} (h : Advances levels n m) : Advances levels n (f <$> m) := by
  rw [map_eq_pure_bind]
  exact h.first fun _ => pure (Nat.le_refl 0)

theorem failing (h : AdvancesFrom start levels m fun _ _ => False) :
    AdvancesFrom start levels (m >>= q) post'' :=
  h.bind fun _ _ hfalse => hfalse.elim

theorem guard {c : Prop} [Decidable c] {check : Parser PUnit} {next : PUnit → Parser α}
    (hcheck : AdvancesTo levels check fun _ _ => False) (hnext : AdvancesTo levels (next ⟨⟩) post) :
    AdvancesTo levels (if c then check >>= next else next ⟨⟩) post :=
  ite (fun _ => hcheck.failing) fun _ => hnext

end AdvancesFrom

theorem done_advances (a : α) : Advances levels 0 (pure a : Parser α) :=
  AdvancesFrom.pure (Nat.le_refl 0)

theorem scanning_advancesFrom (here : Cursor → Prop) {scan : Scan α} {post : Nat → α → Prop}
    (h : ∀ c, here c → Ends (fun a t => c.Leads t ∧ post (t.position - c.position) a)
      (fun f t => c.Leads t ∧ f.IsMalformed) (scan c)) :
    AdvancesFrom (fun context => here context.cursor) levels (liftM scan : Parser α) post := by
  refine ⟨fun context hcontext => ?_⟩
  have hc := h context.cursor hcontext
  change Ends _ _ (scanning scan context)
  unfold scanning
  cases hs : scan context.cursor with
  | ok a cursor =>
    rw [hs] at hc
    exact ⟨⟨hc.1,List.prefix_rfl,rfl,rfl,rfl,rfl⟩,hc.2⟩
  | error f cursor =>
    rw [hs] at hc
    exact ⟨⟨hc.1,List.prefix_rfl,rfl,rfl,rfl,rfl⟩,.of_isMalformed hc.2⟩

theorem scanning_advancesTo {scan : Scan α} {post : Nat → α → Prop} (h : RunsTo scan post) :
    AdvancesTo levels (liftM scan : Parser α) post :=
  scanning_advancesFrom (fun _ => True) fun c _ => h.ends c trivial

theorem scanning_advances {scan : Scan α} {p : α → Prop} (h : Runs n scan p) :
    Advances levels n (liftM scan : Parser α) :=
  (scanning_advancesTo h).imp (fun _ _ ha => ha.1) (Nat.le_refl _)

theorem here_advances : Advances levels 0 here :=
  ⟨fun context _ => ⟨.refl context,Nat.zero_le _⟩⟩

theorem get_advances : Advances levels 0 (get : Parser Context) :=
  ⟨fun context _ => ⟨.refl context,Nat.zero_le _⟩⟩

theorem fail_advances {e : DemangleError} {post : Nat → α → Prop} (h : e.category = .malformed) :
    AdvancesTo levels (fail e : Parser α) post :=
  .throw (.of_isMalformed ⟨e,rfl,h⟩)

theorem unexpected_advances {post : Nat → α → Prop} (production : String) :
    AdvancesTo levels (unexpected production : Parser α) post :=
  here_advances.bind fun _ c _ => fail_advances (c.category_unexpectedAt production)

theorem build_advances (node : Node) : Advances levels 0 (build node) :=
  .ite (fun _ => done_advances node) fun _ => .throw (.of_broken (by decide))

theorem remember_advances (node : Node) : Advances levels 0 (remember node) :=
  ⟨fun context _ => ⟨⟨.refl _,⟨[node],by simp⟩,rfl,rfl,rfl,rfl⟩,Nat.zero_le _⟩⟩

theorem remembered_advances {component : Parser Node}
    (h : AdvancesFrom start levels component fun d _ => n ≤ d) :
    AdvancesFrom start levels (remembered component) fun d _ => n ≤ d :=
  h.first fun node => (remember_advances node).first fun _ => done_advances node

/-- What is read after a look at the next character may rely on it. -/
theorem peek_advances {q : Option Char → Parser β}
    (h : ∀ next : Option Char,
      AdvancesFrom (fun context => context.cursor.rest[0]? = next) levels (q next)
        fun d _ => n ≤ d) :
    Advances levels n (liftM (Cursor.peek 0) >>= q) :=
  ⟨fun context _ => (h _).ends context rfl⟩

theorem around_advances (enter : Context → Context) (leave : Context → Context → Context)
    {body : Parser α} (henter : ∀ context, (enter context).cursor = context.cursor)
    (hleave : ∀ context after, (leave context after).cursor = after.cursor)
    (honward : ∀ context after, (enter context).Onward after → context.Onward (leave context after))
    (h : Advances levels n body) : Advances levels n (around enter leave body) := by
  refine ⟨fun context _ => ?_⟩
  have hb := h.ends (enter context) trivial
  rw [henter] at hb
  unfold around
  cases hr : body (enter context) with
  | ok a after =>
    rw [hr] at hb
    exact ⟨honward _ _ hb.1,by rw [hleave]; exact hb.2⟩
  | error f after =>
    rw [hr] at hb
    exact ⟨honward _ _ hb.1,by rw [hleave]; exact hb.2⟩

theorem allowingTemplateArgs_advances (allowed : Bool) {body : Parser α}
    (h : Advances levels n body) : Advances levels n (allowingTemplateArgs allowed body) :=
  around_advances (fun context => { context with templateArgsAllowed := allowed })
    (fun context after => { after with templateArgsAllowed := context.templateArgsAllowed })
    (fun _ => rfl) (fun _ _ => rfl)
    (fun _ _ ht => ⟨ht.cursor,ht.entries,ht.recursionLimit,ht.depth,rfl,ht.speculative⟩) h

theorem nested_advances {body : Parser α} (h : Advances levels n body) :
    Advances levels n (nested body) :=
  around_advances (fun context => { context with depth := context.depth + 1 })
    (fun context after => { after with depth := context.depth })
    (fun _ => rfl) (fun _ _ => rfl)
    (fun _ _ ht =>
      ⟨ht.cursor,ht.entries,ht.recursionLimit,rfl,ht.templateArgsAllowed,ht.speculative⟩)
    h

/-- A trial leaves the flag as it is where none is going on. -/
theorem trial_advances {body : Parser α} (h : Advances levels n body) :
    AdvancesFrom (·.speculative = false) levels (trial body) fun d found =>
      found.isSome → n ≤ d := by
  refine ⟨fun context hspeculative => ?_⟩
  have hb := h.ends { context with speculative := true } trivial
  have restored : ∀ {after : Context}, Context.Onward { context with speculative := true } after →
      context.Onward { after with speculative := false } := fun ht =>
    ⟨ht.cursor,ht.entries,ht.recursionLimit,ht.depth,ht.templateArgsAllowed,hspeculative.symm⟩
  unfold trial
  cases hr : body { context with speculative := true } with
  | ok a after =>
    rw [hr] at hb
    exact ⟨restored hb.1,fun _ => hb.2⟩
  | error fault after =>
    rw [hr] at hb
    cases fault with
    | broken promise => exact ⟨restored hb.1,hb.2⟩
    | error e =>
      dsimp only
      split
      · exact ⟨restored hb.1,by simp⟩
      · exact ⟨restored hb.1,hb.2⟩

def RoundMoves {γ : Type} (d : Nat) : Round γ β → Prop
  | .again _ => 1 ≤ d
  | .done _ => True

theorem repeatWithin_advances {γ : Type} {round : γ → Parser (Round γ β)}
    (h : ∀ a, AdvancesTo levels (round a) RoundMoves) (bound : List Char) (a : γ)
    (context : Context) (hbound : context.cursor.rest.length ≤ bound.length) :
    Ends (fun _ t => context.Onward t) (fun f t => context.Onward t ∧
      Affordable levels (t.cursor.position - context.cursor.position) f)
      (repeatWithin round bound a context) := by
  induction bound generalizing a context with
  | nil =>
    unfold repeatWithin
    refine ((h a).ends context trivial).bind ?_
    rintro (a | b) t ⟨hct,hp⟩
    -- With no bound left there is no text left, so that no round reads any of it and goes on.
    · have hpos : 1 ≤ t.cursor.position - context.cursor.position := hp
      have hlen := hct.cursor.length_eq
      simp only [Cursor.length,Cursor.position,List.length_nil] at hlen hpos hbound
      omega
    · exact hct
  | cons x bound ih =>
    unfold repeatWithin
    refine ((h a).ends context trivial).bind ?_
    rintro (a | b) t ⟨hct,hp⟩
    · have hpos : 1 ≤ t.cursor.position - context.cursor.position := hp
      have hlen := hct.cursor.length_eq
      have hle := hct.cursor.position_le
      have hrest : t.cursor.rest.length ≤ bound.length := by
        simp only [Cursor.length,Cursor.position,List.length_cons] at hlen hpos hbound
        omega
      refine (ih a t hrest).imp (fun _ u htu => hct.trans htu) ?_
      rintro f u ⟨htu,hf⟩
      have hle' := htu.cursor.position_le
      exact ⟨hct.trans htu,hf.mono (by omega)⟩
    · exact hct

/-- The bound on the rounds of a repetition is never met. -/
theorem repeatRound_advances {γ : Type} {round : γ → Parser (Round γ β)} {a : γ}
    (h : ∀ a, AdvancesTo levels (round a) RoundMoves) :
    Advances levels 0 (repeatRound round a) := by
  refine ⟨fun context _ => ?_⟩
  change Ends _ _ (repeatWithin round context.cursor.rest a context)
  refine (repeatWithin_advances h _ a context (Nat.le_refl _)).imp ?_ fun _ _ ht => ht
  exact fun _ t ht => ⟨ht,Nat.zero_le _⟩

theorem itemsUntil_advances {listEnd : Parser Bool} {item : Parser α}
    (hend : Advances levels 0 listEnd) (hitem : Advances levels 1 item) :
    Advances levels 0 (itemsUntil listEnd item) := by
  refine repeatRound_advances fun items => ?_
  refine AdvancesFrom.bind hend fun d atEnd _ => .ite (fun _ => ?_) fun _ => ?_
  · exact AdvancesFrom.pure trivial
  · refine AdvancesFrom.bind (hitem.lower (Nat.sub_le ..)) fun e _ he => AdvancesFrom.pure ?_
    change 1 ≤ d + (e + 0)
    omega

theorem itemsToE_advances {item : Parser α} (hitem : Advances levels 1 item) :
    Advances levels 0 (itemsToE item) :=
  itemsUntil_advances (scanning_advances (Cursor.consume_runs "E")) hitem

end

end Grammar

end MangledNames
