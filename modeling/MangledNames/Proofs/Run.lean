import MangledNames.Fault
set_option autoImplicit false

/-!
Computations with a state, seen from outside: what every run of one keeps (`Runs`), when
two of them run alike (`Simulation.Holds`), and what one comes to from known states
(`Gives`, `Fails`, `Yields`).
-/

namespace MangledNames

/-- An error of the symbol or of a limit, and no broken promise. -/
def Fault.IsError (fault : Fault) : Prop := ∃ e, fault = .error e

/-- A cutoff by one of the limits. -/
def Fault.IsLimit (fault : Fault) : Prop := ∃ e, fault = .error e ∧ e.category = .limit

@[simp] theorem Fault.isError_error (e : DemangleError) : (Fault.error e).IsError := ⟨e,rfl⟩

/-- An error of the text. -/
def Fault.IsMalformed (fault : Fault) : Prop := ∃ e, fault = .error e ∧ e.category = .malformed

theorem Fault.IsMalformed.isError {fault : Fault} (h : fault.IsMalformed) : fault.IsError := by
  obtain ⟨e,rfl,_⟩ := h
  exact ⟨e,rfl⟩

@[simp] theorem Fault.isLimit_error (e : DemangleError) :
    (Fault.error e).IsLimit ↔ e.category = .limit := by
  constructor
  · rintro ⟨e,⟨rfl⟩,h⟩
    exact h
  · intro h
    exact ⟨e,rfl,h⟩

section
variable {σ α β : Type}

@[simp] theorem bind_apply (m : EStateM Fault σ α) (k : α → EStateM Fault σ β) (s : σ) :
    (m >>= k) s = match m s with
      | .ok a t => k a t
      | .error fault t => .error fault t := by
  change EStateM.bind m k s = _
  unfold EStateM.bind
  cases m s <;> rfl

theorem bind_ok {m : EStateM Fault σ α} {q : α → EStateM Fault σ β} {s u : σ} {b : β}
    (h : (m >>= q) s = .ok b u) : ∃ a t, m s = .ok a t ∧ q a t = .ok b u := by
  rw [bind_apply] at h
  cases hm : m s with
  | ok a t =>
    rw [hm] at h
    exact ⟨a,t,rfl,h⟩
  | error fault t =>
    rw [hm] at h
    cases h

@[simp] theorem map_apply (m : EStateM Fault σ α) (f : α → β) (s : σ) :
    (f <$> m) s = match m s with
      | .ok a t => .ok (f a) t
      | .error fault t => .error fault t := by
  change EStateM.map f m s = _
  unfold EStateM.map
  cases m s <;> rfl

@[simp] theorem pure_apply (a : α) (s : σ) : (pure a : EStateM Fault σ α) s = .ok a s := rfl

@[simp] theorem throw_apply (fault : Fault) (s : σ) :
    (throw fault : EStateM Fault σ α) s = .error fault s := rfl

@[simp] theorem get_apply (s : σ) : (get : EStateM Fault σ σ) s = .ok s s := rfl

@[simp] theorem set_apply (s t : σ) : (set t : EStateM Fault σ PUnit) s = .ok ⟨⟩ t := rfl

@[simp] theorem modify_apply (f : σ → σ) (s : σ) :
    (modify f : EStateM Fault σ PUnit) s = .ok ⟨⟩ (f s) := rfl

end

/-- How the states of a computation may follow each other. -/
class Course (σ : Type) where
  Sound : σ → Prop
  Leads : σ → σ → Prop
  Fails : Fault → Prop
  progress : σ → Nat
  refl : ∀ s, Leads s s
  trans : ∀ {s t u}, Leads s t → Leads t u → Leads s u
  sound : ∀ {s t}, Leads s t → Sound s → Sound t
  mono : ∀ {s t}, Leads s t → progress s ≤ progress t

section
variable {σ α β : Type}

/-- A run that ends well with `good` and badly with `bad`. -/
def Ends (good : α → σ → Prop) (bad : Fault → σ → Prop) : EStateM.Result Fault σ α → Prop
  | .ok a s => good a s
  | .error fault s => bad fault s

theorem Ends.imp {good good' : α → σ → Prop} {bad bad' : Fault → σ → Prop}
    {result : EStateM.Result Fault σ α} (h : Ends good bad result)
    (hgood : ∀ a s, good a s → good' a s) (hbad : ∀ f s, bad f s → bad' f s) :
    Ends good' bad' result := by
  cases result with
  | ok a s => exact hgood a s h
  | error f s => exact hbad f s h

theorem Ends.bind {good : α → σ → Prop} {good' : β → σ → Prop} {bad : Fault → σ → Prop}
    {m : EStateM Fault σ α} {k : α → EStateM Fault σ β} {s : σ} (h : Ends good bad (m s))
    (hk : ∀ a t, good a t → Ends good' bad (k a t)) : Ends good' bad ((m >>= k) s) := by
  cases hm : m s with
  | ok a t =>
    rw [hm] at h
    rw [bind_apply,hm]
    exact hk a t h
  | error f t =>
    rw [hm] at h
    rw [bind_apply,hm]
    exact h

variable [Course σ]

open Course

/-- From every sound state the computation ends either with a value and a distance as `post` says,
or with a fault that the course allows. -/
structure RunsTo (m : EStateM Fault σ α) (post : Nat → α → Prop) : Prop where
  ends : ∀ s, Sound s →
    Ends (fun a t => Leads s t ∧ post (progress t - progress s) a)
      (fun f t => Leads s t ∧ Fails (σ := σ) f) (m s)

namespace RunsTo

variable {m : EStateM Fault σ α} {q : α → EStateM Fault σ β} {post post' : Nat → α → Prop}
  {post'' : Nat → β → Prop}

theorem imp (h : RunsTo m post) (hpost : ∀ d a, post d a → post' d a) : RunsTo m post' :=
  ⟨fun s hs => (h.ends s hs).imp (fun a _ ht => ⟨ht.1,hpost _ a ht.2⟩) fun _ _ ht => ht⟩

theorem pure {a : α} (h : post 0 a) : RunsTo (Pure.pure a : EStateM Fault σ α) post :=
  ⟨fun s _ => ⟨refl s,by simpa using h⟩⟩

theorem throw {f : Fault} (h : Fails (σ := σ) f) : RunsTo (throw f : EStateM Fault σ α) post :=
  ⟨fun s _ => ⟨refl s,h⟩⟩

theorem bind (h : RunsTo m post) (hq : ∀ d a, post d a → RunsTo (q a) fun e b => post'' (d + e) b) :
    RunsTo (m >>= q) post'' := by
  refine ⟨fun s hs => Ends.bind (h.ends s hs) ?_⟩
  rintro a t ⟨hst,ha⟩
  refine ((hq _ a ha).ends t (sound hst hs)).imp ?_ ?_
  · rintro b u ⟨htu,hb⟩
    have hle := mono hst
    have hle' := mono htu
    rw [show progress t - progress s + (progress u - progress t) = progress u - progress s by
      omega] at hb
    exact ⟨trans hst htu,hb⟩
  · rintro f u ⟨htu,hf⟩
    exact ⟨trans hst htu,hf⟩

theorem ite {c : Prop} [Decidable c] {m₁ m₂ : EStateM Fault σ α} (h₁ : c → RunsTo m₁ post)
    (h₂ : ¬c → RunsTo m₂ post) : RunsTo (if c then m₁ else m₂) post := by
  split
  · exact h₁ ‹_›
  · exact h₂ ‹_›

end RunsTo

/-- Runs that get at least `n` further on and give good values. -/
abbrev Runs (n : Nat) (m : EStateM Fault σ α) (good : α → Prop) : Prop :=
  RunsTo m fun d a => n ≤ d ∧ good a

namespace Runs

variable {n k : Nat} {m : EStateM Fault σ α} {q : α → EStateM Fault σ β} {p p' : α → Prop}
  {g : β → Prop}

theorem imp (h : Runs n m p) (hp : ∀ a, p a → p' a) : Runs n m p' :=
  RunsTo.imp h fun _ a ha => ⟨ha.1,hp a ha.2⟩

theorem le (h : Runs n m p) (hk : k ≤ n) : Runs k m p :=
  RunsTo.imp h fun _ _ ha => ⟨Nat.le_trans hk ha.1,ha.2⟩

theorem rest (h : Runs n m p) : Runs 0 m p := h.le (Nat.zero_le n)

theorem pure {a : α} (h : p a) : Runs 0 (Pure.pure a : EStateM Fault σ α) p :=
  RunsTo.pure ⟨Nat.le_refl 0,h⟩

theorem throw {f : Fault} (h : Fails (σ := σ) f) : Runs n (throw f : EStateM Fault σ α) p :=
  RunsTo.throw h

theorem bind (h : Runs n m p) (hq : ∀ a, p a → Runs k (q a) g) :
    Runs (n + k) (m >>= q) g :=
  RunsTo.bind h fun _ a ha => RunsTo.imp (hq a ha.2) fun _ _ hb => ⟨Nat.add_le_add ha.1 hb.1,hb.2⟩

theorem first (h : Runs n m p) (hq : ∀ a, p a → Runs 0 (q a) g) :
    Runs n (m >>= q) g := h.bind hq

theorem andThen (h : Runs 0 m p) (hq : ∀ a, p a → Runs n (q a) g) :
    Runs n (m >>= q) g := (h.bind hq).le (by omega)

theorem failing (h : Runs n m fun _ => False) : Runs n (m >>= q) g :=
  h.first fun _ hfalse => hfalse.elim

theorem map {f : α → β} (h : Runs n m p) (hf : ∀ a, p a → g (f a)) :
    Runs n (f <$> m) g := by
  rw [map_eq_pure_bind]
  exact h.first fun a ha => Runs.pure (hf a ha)

theorem ite {c : Prop} [Decidable c] {m₁ m₂ : EStateM Fault σ α} (h₁ : c → Runs n m₁ p)
    (h₂ : ¬c → Runs n m₂ p) : Runs n (if c then m₁ else m₂) p := by
  split
  · exact h₁ ‹_›
  · exact h₂ ‹_›

theorem guard {c : Prop} [Decidable c] {check : EStateM Fault σ PUnit}
    {next : PUnit → EStateM Fault σ α} (hcheck : Runs n check fun _ => False)
    (hnext : Runs n (next ⟨⟩) p) : Runs n (if c then check >>= next else next ⟨⟩) p :=
  ite (fun _ => hcheck.failing) fun _ => hnext

theorem guardNot {c : Prop} [Decidable c] {check : EStateM Fault σ PUnit}
    {next : PUnit → EStateM Fault σ α} (hcheck : Runs n check fun _ => False)
    (hnext : Runs n (next ⟨⟩) p) : Runs n (if c then next ⟨⟩ else check >>= next) p :=
  ite (fun _ => hnext) fun _ => hcheck.failing

end Runs

end

/-- What two runs have in common. Either may be cut off; then nothing is said about the other. -/
structure Simulation (σ τ : Type) where
  states : σ → τ → Prop
  faults : Fault → Fault → Prop
  cutLeft : Fault → Prop
  cutRight : Fault → Prop

namespace Simulation

section
variable {σ τ α β γ δ : Type} (S : Simulation σ τ)

/-- Results that are values or faults alike, or of which one was cut off. -/
def Matches (values : α → β → Prop) : EStateM.Result Fault σ α → EStateM.Result Fault τ β → Prop
  | .ok a s, .ok b t => values a b ∧ S.states s t
  | .error f s, .error g t => S.cutLeft f ∨ S.cutRight g ∨ S.faults f g ∧ S.states s t
  | .error f _, .ok _ _ => S.cutLeft f
  | .ok _ _, .error g _ => S.cutRight g

/-- From states alike both computations come to results alike. -/
structure Holds (values : α → β → Prop) (m : EStateM Fault σ α) (n : EStateM Fault τ β) : Prop where
  results : ∀ s t, S.states s t → S.Matches values (m s) (n t)

abbrev Alike (m : EStateM Fault σ α) (n : EStateM Fault τ α) : Prop := S.Holds Eq m n

variable {S} {v : α → β → Prop} {w : γ → δ → Prop} {m : EStateM Fault σ α} {n : EStateM Fault τ β}

theorem Matches.cutLeft {f : Fault} {s : σ} (h : S.cutLeft f) (result : EStateM.Result Fault τ β) :
    S.Matches v (.error f s : EStateM.Result Fault σ α) result := by
  cases result with
  | ok b t => exact h
  | error g t => exact .inl h

theorem Matches.cutRight {g : Fault} {t : τ} (h : S.cutRight g)
    (result : EStateM.Result Fault σ α) :
    S.Matches v result (.error g t : EStateM.Result Fault τ β) := by
  cases result with
  | ok a s => exact h
  | error f s => exact .inr (.inl h)

theorem Holds.pure {a : α} {b : β} (h : v a b) :
    S.Holds v (Pure.pure a : EStateM Fault σ α) (Pure.pure b : EStateM Fault τ β) :=
  ⟨fun _ _ hs => ⟨h,hs⟩⟩

theorem Holds.throw {f g : Fault} (h : S.faults f g) :
    S.Holds v (throw f : EStateM Fault σ α) (throw g : EStateM Fault τ β) :=
  ⟨fun _ _ hs => .inr (.inr ⟨h,hs⟩)⟩

theorem Holds.imp {u : α → β → Prop} (h : S.Holds v m n) (hv : ∀ a b, v a b → u a b) :
    S.Holds u m n := by
  refine ⟨fun s t hs => ?_⟩
  have hr := h.results s t hs
  cases hm : m s <;> cases hn : n t <;> rw [hm,hn] at hr
  · exact ⟨hv _ _ hr.1,hr.2⟩
  · exact hr
  · exact hr
  · exact hr

theorem Holds.bind {q : α → EStateM Fault σ γ} {r : β → EStateM Fault τ δ} (h : S.Holds v m n)
    (hq : ∀ a b, v a b → S.Holds w (q a) (r b)) : S.Holds w (m >>= q) (n >>= r) := by
  refine ⟨fun s t hs => ?_⟩
  have hr := h.results s t hs
  rw [bind_apply,bind_apply]
  cases hm : m s with
  | ok a s' =>
    cases hn : n t with
    | ok b t' =>
      rw [hm,hn] at hr
      exact (hq a b hr.1).results s' t' hr.2
    | error g t' =>
      rw [hm,hn] at hr
      exact Matches.cutRight hr _
  | error f s' =>
    cases hn : n t with
    | ok b t' =>
      rw [hm,hn] at hr
      exact Matches.cutLeft hr _
    | error g t' =>
      rw [hm,hn] at hr
      exact hr

theorem Holds.map {q : α → γ} {r : β → δ} (h : S.Holds v m n) (hq : ∀ a b, v a b → w (q a) (r b)) :
    S.Holds w (q <$> m) (r <$> n) := by
  rw [map_eq_pure_bind,map_eq_pure_bind]
  exact h.bind fun _ _ hab => Holds.pure (hq _ _ hab)

theorem Holds.ite {c : Prop} [Decidable c] {m₁ m₂ : EStateM Fault σ α} {n₁ n₂ : EStateM Fault τ β}
    (h₁ : c → S.Holds v m₁ n₁) (h₂ : ¬c → S.Holds v m₂ n₂) :
    S.Holds v (if c then m₁ else m₂) (if c then n₁ else n₂) := by
  by_cases h : c
  · rw [if_pos h,if_pos h]
    exact h₁ h
  · rw [if_neg h,if_neg h]
    exact h₂ h

variable {k : EStateM Fault τ α} {q : α → EStateM Fault σ γ} {r : α → EStateM Fault τ γ}

theorem Alike.bind (h : S.Alike m k) (hq : ∀ a, S.Alike (q a) (r a)) :
    S.Alike (m >>= q) (k >>= r) :=
  Holds.bind h fun a _ hab => hab ▸ hq a

theorem Alike.of_pure {a : α} {n : EStateM Fault τ γ} (h : S.Alike m (Pure.pure a))
    (hq : S.Alike (q a) n) : S.Alike (m >>= q) n := by
  refine ⟨fun s t hst => ?_⟩
  have hm := h.results s t hst
  rw [bind_apply]
  cases hs : m s with
  | ok b s' =>
    rw [hs] at hm
    obtain ⟨rfl,hst'⟩ := hm
    exact hq.results s' t hst'
  | error f s' =>
    rw [hs] at hm
    exact Matches.cutLeft hm _

variable {c : Prop} [Decidable c] {check : EStateM Fault σ PUnit} {check' : EStateM Fault τ PUnit}
  {next : PUnit → EStateM Fault σ γ} {next' : PUnit → EStateM Fault τ γ}

theorem Holds.guard (h : S.Alike check check') (hnext : S.Alike (next ⟨⟩) (next' ⟨⟩)) :
    S.Alike (if c then check >>= next else next ⟨⟩) (if c then check' >>= next' else next' ⟨⟩) :=
  Holds.ite (fun _ => h.bind fun _ => hnext) fun _ => hnext

theorem Holds.guardNot (h : S.Alike check check') (hnext : S.Alike (next ⟨⟩) (next' ⟨⟩)) :
    S.Alike (if c then next ⟨⟩ else check >>= next) (if c then next' ⟨⟩ else check' >>= next') :=
  Holds.ite (fun _ => hnext) fun _ => h.bind fun _ => hnext

theorem Alike.map {f : α → γ} (h : S.Alike m k) : S.Alike (f <$> m) (f <$> k) :=
  Holds.map h fun _ _ hab => hab ▸ rfl

end

end Simulation

/-- From every state in `before` the computation comes to the value `a` and to a state in
`after`. -/
structure Gives {σ α : Type} (m : EStateM Fault σ α) (before : σ → Prop) (a : α)
    (after : σ → Prop) : Prop where
  results : ∀ s, before s → ∃ t, m s = .ok a t ∧ after t

namespace Gives

variable {σ α β : Type} {m : EStateM Fault σ α} {q : α → EStateM Fault σ β}
  {before after last : σ → Prop} {a : α} {b : β}

theorem pure : Gives (Pure.pure a : EStateM Fault σ α) before a before :=
  ⟨fun s hs => ⟨s,rfl,hs⟩⟩

theorem bind (h : Gives m before a after) (hq : Gives (q a) after b last) :
    Gives (m >>= q) before b last := by
  refine ⟨fun s hs => ?_⟩
  obtain ⟨t,hm,ht⟩ := h.results s hs
  obtain ⟨u,hb,hu⟩ := hq.results t ht
  exact ⟨u,by rw [bind_apply,hm]; exact hb,hu⟩

theorem imp {before' after' : σ → Prop} (h : Gives m before a after)
    (hbefore : ∀ s, before' s → before s) (hafter : ∀ s, after s → after' s) :
    Gives m before' a after' := by
  refine ⟨fun s hs => ?_⟩
  obtain ⟨t,hm,ht⟩ := h.results s (hbefore s hs)
  exact ⟨t,hm,hafter t ht⟩

theorem map (h : Gives m before a after) (f : α → β) : Gives (f <$> m) before (f a) after := by
  rw [map_eq_pure_bind]
  exact h.bind pure

theorem ifPos {c : Prop} [Decidable c] {m n : EStateM Fault σ α} (hc : c)
    (h : Gives m before a after) : Gives (if c then m else n) before a after := by
  rwa [if_pos hc]

theorem ifNeg {c : Prop} [Decidable c] {m n : EStateM Fault σ α} (hc : ¬c)
    (h : Gives n before a after) : Gives (if c then m else n) before a after := by
  rwa [if_neg hc]

end Gives

/-- From every state in `before` the computation ends with an error of the text. -/
structure Fails {σ α : Type} (m : EStateM Fault σ α) (before : σ → Prop) : Prop where
  results : ∀ s, before s → ∃ fault t, m s = .error fault t ∧ fault.IsMalformed

namespace Fails

variable {σ α β : Type} {m : EStateM Fault σ α} {q : α → EStateM Fault σ β}
  {before after : σ → Prop} {a : α}

theorem bind (h : Fails m before) : Fails (m >>= q) before := by
  refine ⟨fun s hs => ?_⟩
  obtain ⟨fault,t,hm,hfault⟩ := h.results s hs
  exact ⟨fault,t,by rw [bind_apply,hm],hfault⟩

theorem map (h : Fails m before) (f : α → β) : Fails (f <$> m) before := by
  rw [map_eq_pure_bind]
  exact h.bind

end Fails

/-- Whatever value the computation comes to from a state in `before`, `p` says of it. -/
structure Yields {σ α : Type} (m : EStateM Fault σ α) (before : σ → Prop)
    (p : α → Prop) : Prop where
  results : ∀ s a t, before s → m s = .ok a t → p a

namespace Yields

variable {σ α β : Type} {m : EStateM Fault σ α} {q : α → EStateM Fault σ β} {before : σ → Prop}
  {p : α → Prop} {g : β → Prop}

theorem any : Yields m before fun _ => True := ⟨fun _ _ _ _ _ => trivial⟩

theorem pure {a : α} (h : p a) : Yields (Pure.pure a : EStateM Fault σ α) before p := by
  refine ⟨fun s b t _ hrun => ?_⟩
  cases hrun
  exact h

theorem throw {fault : Fault} : Yields (throw fault : EStateM Fault σ α) before p := by
  refine ⟨fun s b t _ hrun => ?_⟩
  cases hrun

theorem bind (h : Yields m before p) (hq : ∀ a, p a → Yields (q a) (fun _ => True) g) :
    Yields (m >>= q) before g := by
  refine ⟨fun s b u hs hrun => ?_⟩
  obtain ⟨a,t,hm,hb⟩ := bind_ok hrun
  exact (hq a (h.results s a t hs hm)).results t b u trivial hb

theorem ite {c : Prop} [Decidable c] {n : EStateM Fault σ α} (hm : c → Yields m before p)
    (hn : ¬c → Yields n before p) : Yields (if c then m else n) before p := by
  split
  · exact hm ‹_›
  · exact hn ‹_›

end Yields

theorem Gives.yields {σ α β : Type} {m : EStateM Fault σ α} {q : α → EStateM Fault σ β}
    {before after : σ → Prop} {a : α} {p : β → Prop} (h : Gives m before a after)
    (hq : Yields (q a) after p) : Yields (m >>= q) before p := by
  refine ⟨fun s b u hs hrun => ?_⟩
  obtain ⟨t,hm,ht⟩ := h.results s hs
  rw [bind_apply,hm] at hrun
  exact hq.results t b u ht hrun

theorem Gives.fails {σ α β : Type} {m : EStateM Fault σ α} {q : α → EStateM Fault σ β}
    {before after : σ → Prop} {a : α} (h : Gives m before a after) (hq : Fails (q a) after) :
    Fails (m >>= q) before := by
  refine ⟨fun s hs => ?_⟩
  obtain ⟨t,hm,ht⟩ := h.results s hs
  obtain ⟨fault,u,hu,hfault⟩ := hq.results t ht
  exact ⟨fault,u,by rw [bind_apply,hm]; exact hu,hfault⟩

end MangledNames
