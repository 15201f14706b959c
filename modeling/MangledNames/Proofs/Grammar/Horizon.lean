import MangledNames.Proofs.Grammar.AdvancingEncodings
set_option autoImplicit false

/-!
A text that ends, and the same text with a tail behind it. A run over the longer one reads the same,
or goes astray into the tail.
-/

namespace MangledNames

/-- States in a text that ends, and the same states with a tail behind the text. -/
structure Horizon (σ : Type) where
  rest : σ → List Char
  tail : List Char
  extend : σ → σ
  Onward : σ → σ → Prop
  Within : σ → Prop
  /-- Whether a run may go astray into the tail where the other one ends well. -/
  loose : Prop
  rest_extend : ∀ s, rest (extend s) = rest s ++ tail
  refl : ∀ s, Onward s s
  trans : ∀ {s t u}, Onward s t → Onward t u → Onward s u
  shorter : ∀ {s t}, Onward s t → (rest t).length ≤ (rest s).length
  within : ∀ {s t}, Onward s t → Within s → Within t

namespace Horizon

section
variable {σ α β : Type} (H : Horizon σ)

/-- How many characters were read between two states. -/
def distance (s t : σ) : Nat := (H.rest s).length - (H.rest t).length

def Astray (s : σ) : Prop := (H.rest s).length < H.tail.length

/-- What a run with the tail in view may come to, and what the one without it comes to then. -/
def Agrees : EStateM.Result Fault σ α → EStateM.Result Fault σ α → Prop
  | .ok a s, .ok b t => a = b ∧ s = H.extend t ∨ H.loose ∧ H.Astray s
  | .ok _ s, .error _ _ => H.Astray s
  | .error _ _, .ok _ _ => H.loose
  | .error _ _, .error _ _ => True

/-- A run that gets on as far as `post` says, wherever it begins. -/
def Moves (m : EStateM Fault σ α) (post : Nat → α → Prop) : Prop :=
  ∀ s, Ends (fun a t => H.Onward s t ∧ post (H.distance s t) a) (fun _ _ => True) (m s)

/-- A run that moves on, and from the states in `start` comes to the same with and without the tail
in view. -/
structure SeesFrom (start : σ → Prop) (m : EStateM Fault σ α) (post : Nat → α → Prop) : Prop where
  moves : H.Moves m post
  agrees : ∀ s, H.Within s → start s → H.Agrees (m (H.extend s)) (m s)

abbrev SeesTo (m : EStateM Fault σ α) (post : Nat → α → Prop) : Prop :=
  H.SeesFrom (fun _ => True) m post

/-- A run that reads at least `n` characters. -/
abbrev Sees (n : Nat) (m : EStateM Fault σ α) : Prop := H.SeesTo m fun d _ => n ≤ d

variable {H}

theorem Astray.onward {s t : σ} (h : H.Astray s) (hst : H.Onward s t) : H.Astray t :=
  Nat.lt_of_le_of_lt (H.shorter hst) h

theorem distance_self (s : σ) : H.distance s s = 0 := Nat.sub_self _

theorem distance_add {s t u : σ} (hst : H.Onward s t) (htu : H.Onward t u) :
    H.distance s t + H.distance t u = H.distance s u := by
  have h₁ := H.shorter hst
  have h₂ := H.shorter htu
  simp only [distance]
  omega

theorem astray_of_distance {s t : σ} (h : (H.rest s).length < H.distance (H.extend s) t) :
    H.Astray t := by
  simp only [distance,H.rest_extend,List.length_append] at h
  simp only [Astray]
  omega

section
variable {m : EStateM Fault σ α} {q : α → EStateM Fault σ β} {start : σ → Prop}
  {post post' : Nat → α → Prop} {post'' : Nat → β → Prop}

theorem Agrees.of_lost {wide narrow : EStateM.Result Fault σ α} (hloose : H.loose)
    (h : Ends (fun _ s => H.Astray s) (fun _ _ => True) wide) : H.Agrees wide narrow := by
  cases wide with
  | ok a s =>
    cases narrow with
    | ok b t => exact .inr ⟨hloose,h⟩
    | error g t => exact h
  | error f s =>
    cases narrow with
    | ok b t => exact hloose
    | error g t => trivial

theorem Agrees.of_error {wide : EStateM.Result Fault σ α} {g : Fault} {t : σ}
    (h : Ends (fun _ s => H.Astray s) (fun _ _ => True) wide) : H.Agrees wide (.error g t) := by
  cases wide with
  | ok a s => exact h
  | error f s => trivial

theorem agrees_of_moves {k : Nat} {s : σ}
    (h : H.Moves m fun d _ => k ≤ d)
    (hk : (H.rest s).length < k) : H.Agrees (m (H.extend s)) (m s) := by
  have hnarrow := h s
  have hwide := h (H.extend s)
  cases hn : m s with
  | ok a t =>
    rw [hn] at hnarrow
    have hd := hnarrow.2
    simp only [distance] at hd
    omega
  | error g t =>
    refine .of_error (hwide.imp (fun a t ht => ?_) fun _ _ _ => trivial)
    exact astray_of_distance (Nat.lt_of_lt_of_le hk ht.2)

theorem agrees_of_failing {m' : EStateM Fault σ α} (h : H.Moves m fun _ _ => False)
    (h' : H.Moves m' fun _ _ => False) (s t : σ) : H.Agrees (m s) (m' t) := by
  have hs := h s
  have ht := h' t
  cases hm : m s with
  | ok a s' =>
    rw [hm] at hs
    exact hs.2.elim
  | error f s' =>
    cases hm' : m' t with
    | ok b t' =>
      rw [hm'] at ht
      exact ht.2.elim
    | error g t' => trivial

namespace SeesFrom

theorem imp (h : H.SeesFrom start m post) (hpost : ∀ d a, post d a → post' d a) :
    H.SeesFrom start m post' :=
  ⟨fun s => (h.moves s).imp (fun a _ ht => ⟨ht.1,hpost _ a ht.2⟩) fun _ _ _ => trivial,h.agrees⟩

theorem of_seesTo (h : H.SeesTo m post) : H.SeesFrom start m post :=
  ⟨h.moves,fun s hs _ => h.agrees s hs trivial⟩

theorem pure {a : α} (h : post 0 a) : H.SeesTo (Pure.pure a) post :=
  ⟨fun s => ⟨H.refl s,by simpa [distance_self] using h⟩,fun _ _ _ => .inl ⟨rfl,rfl⟩⟩

theorem throw {fault : Fault} : H.SeesTo (throw fault : EStateM Fault σ α) post :=
  ⟨fun _ => trivial,fun _ _ _ => trivial⟩

theorem onward (h : H.SeesFrom start m post) {s t : σ} {a : α} (hm : m s = .ok a t) :
    H.Onward s t ∧ post (H.distance s t) a := by
  have hmoves := h.moves s
  rwa [hm] at hmoves

/-- What ends well in a text that is not loose ends so in front of the tail. -/
theorem calm (h : H.SeesFrom start m post) (hcalm : ¬H.loose) {s t : σ} {a : α} (hs : H.Within s)
    (hstart : start s) (hm : m s = .ok a t) : m (H.extend s) = .ok a (H.extend t) := by
  have hagrees := h.agrees s hs hstart
  cases hwide : m (H.extend s) with
  | ok b u =>
    rw [hwide,hm] at hagrees
    rcases hagrees with ⟨rfl,rfl⟩ | ⟨hloose,_⟩
    · rfl
    · exact absurd hloose hcalm
  | error fault u =>
    rw [hwide,hm] at hagrees
    exact absurd hagrees hcalm

/-- Either a run comes to the same with and without the tail in view, or whatever follows it agrees
already. -/
theorem same_or_agrees (h : H.SeesFrom start m post) {s : σ} (hs : H.Within s) (hstart : start s)
    (hq : ∀ d a, post d a → H.Moves (q a) fun _ _ => True) :
    (∃ a t, m s = .ok a t ∧ m (H.extend s) = .ok a (H.extend t)) ∨
      H.Agrees ((m >>= q) (H.extend s)) ((m >>= q) s) := by
  have lost : ∀ {a t}, m (H.extend s) = .ok a t → H.Astray t →
      Ends (fun _ u => H.Astray u) (fun _ _ => True) (q a t) := by
    intro a t hm ht
    refine (hq _ a (h.onward hm).2 t).imp ?_ fun _ _ _ => trivial
    exact fun b u hu => ht.onward hu.1
  have hagrees := h.agrees s hs hstart
  rw [bind_apply,bind_apply]
  cases hwide : m (H.extend s) with
  | ok a t =>
    cases hnarrow : m s with
    | ok b t' =>
      rw [hwide,hnarrow] at hagrees
      rcases hagrees with ⟨rfl,rfl⟩ | ⟨hloose,ht⟩
      · exact .inl ⟨a,t',rfl,rfl⟩
      · exact .inr (.of_lost hloose (lost hwide ht))
    | error g t' =>
      rw [hwide,hnarrow] at hagrees
      exact .inr (.of_error (lost hwide hagrees))
  | error f t =>
    cases hnarrow : m s with
    | ok b t' =>
      rw [hwide,hnarrow] at hagrees
      exact .inr (.of_lost hagrees trivial)
    | error g t' => exact .inr trivial

theorem bindFrom (next : α → σ → Prop) (h : H.SeesFrom start m post)
    (hnext : ∀ s a t, start s → m s = .ok a t → next a t)
    (hq : ∀ d a, post d a → H.SeesFrom (next a) (q a) fun e b => post'' (d + e) b) :
    H.SeesFrom start (m >>= q) post'' := by
  refine ⟨fun s => Ends.bind (h.moves s) ?_,fun s hs hstart => ?_⟩
  · rintro a t ⟨hst,ha⟩
    refine ((hq _ a ha).moves t).imp ?_ fun _ _ _ => trivial
    rintro b u ⟨htu,hb⟩
    rw [distance_add hst htu] at hb
    exact ⟨H.trans hst htu,hb⟩
  · have hmoves : ∀ d a, post d a → H.Moves (q a) fun _ _ => True := fun d a ha t =>
      ((hq d a ha).moves t).imp (fun _ _ ht => ⟨ht.1,trivial⟩) fun _ _ _ => trivial
    rcases h.same_or_agrees hs hstart hmoves with ⟨a,t,hnarrow,hwide⟩ | hagrees
    · rw [bind_apply,bind_apply,hnarrow,hwide]
      have hst := h.onward hnarrow
      exact (hq _ a hst.2).agrees t (H.within hst.1 hs) (hnext s a t hstart hnarrow)
    · exact hagrees

theorem bind (h : H.SeesFrom start m post)
    (hq : ∀ d a, post d a → H.SeesTo (q a) fun e b => post'' (d + e) b) :
    H.SeesFrom start (m >>= q) post'' :=
  bindFrom (fun _ _ => True) h (fun _ _ _ _ _ => trivial) hq

theorem ite {c : Prop} [Decidable c] {m₁ m₂ : EStateM Fault σ α}
    (h₁ : c → H.SeesFrom start m₁ post) (h₂ : ¬c → H.SeesFrom start m₂ post) :
    H.SeesFrom start (if c then m₁ else m₂) post := by
  split
  · exact h₁ ‹_›
  · exact h₂ ‹_›

end SeesFrom

namespace Sees

variable {n k : Nat}

theorem le (h : H.SeesFrom start m fun d _ => n ≤ d) (hk : k ≤ n) :
    H.SeesFrom start m fun d _ => k ≤ d := h.imp fun _ _ hd => Nat.le_trans hk hd

theorem rest (h : H.SeesFrom start m fun d _ => n ≤ d) : H.SeesFrom start m fun d _ => 0 ≤ d :=
  le h (Nat.zero_le n)

theorem first (h : H.SeesFrom start m fun d _ => n ≤ d) (hq : ∀ a, H.Sees 0 (q a)) :
    H.SeesFrom start (m >>= q) fun d _ => n ≤ d :=
  h.bind fun _ a hd => (hq a).imp fun _ _ _ => by omega

theorem andThen (h : H.SeesFrom start m fun d _ => n ≤ d) (hq : ∀ a, H.Sees k (q a)) :
    H.SeesFrom start (m >>= q) fun d _ => n + k ≤ d :=
  h.bind fun _ a hd => (hq a).imp fun _ _ _ => by omega

theorem after (h : H.SeesFrom start m post) (hq : ∀ a, H.Sees k (q a)) :
    H.SeesFrom start (m >>= q) fun d _ => k ≤ d :=
  h.bind fun _ a _ => (hq a).imp fun _ _ _ => by omega

theorem map {f : α → β} (h : H.SeesFrom start m fun d _ => n ≤ d) :
    H.SeesFrom start (f <$> m) fun d _ => n ≤ d := by
  rw [map_eq_pure_bind]
  exact first h fun _ => .pure (Nat.le_refl 0)

theorem failing (h : H.SeesTo m fun _ _ => False) : H.SeesTo (m >>= q) post'' :=
  h.bind fun _ _ hfalse => hfalse.elim

theorem ifFound {look : EStateM Fault σ Bool} {found missing : EStateM Fault σ α} {l : Nat}
    (h : H.SeesTo look fun d b => b = true → l ≤ d) (hfound : H.Sees k found)
    (hmissing : H.Sees n missing) (hn : n ≤ l + k) :
    H.Sees n (do if ← look then found else missing) := by
  refine h.bind fun d b hd => .ite (fun hb => ?_) fun _ => ?_
  · have hl := hd hb
    exact hfound.imp fun _ _ _ => by omega
  · exact hmissing.imp fun _ _ _ => by omega

theorem guard {c : Prop} [Decidable c] {check : EStateM Fault σ PUnit}
    {next : PUnit → EStateM Fault σ α} (hcheck : H.SeesTo check fun _ _ => False)
    (hnext : H.SeesTo (next ⟨⟩) post) :
    H.SeesTo (if c then check >>= next else next ⟨⟩) post :=
  .ite (fun _ => failing hcheck) fun _ => hnext

end Sees

end

section
variable {look : EStateM Fault σ β} {f : List Char → β} {q : β → EStateM Fault σ α}
  {start : σ → Prop} {post : Nat → α → Prop}

theorem moves_look (hlook : ∀ s, look s = .ok (f (H.rest s)) s)
    (hq : ∀ b, H.SeesFrom (fun s => start s ∧ f (H.rest s) = b) (q b) post) :
    H.Moves (look >>= q) post := by
  intro s
  rw [bind_apply,hlook]
  exact (hq _).moves s

/-- A look that the tail may change: then what follows reads beyond the end of the text, or it is
the same whatever was seen. -/
theorem look_sees (hlook : ∀ s, look s = .ok (f (H.rest s)) s)
    (hq : ∀ b, H.SeesFrom (fun s => start s ∧ f (H.rest s) = b) (q b) post)
    (hedge : ∀ s, start s → f (H.rest s ++ H.tail) = f (H.rest s) ∨
      q (f (H.rest s ++ H.tail)) = q (f (H.rest s)) ∨
      H.loose ∧ H.Moves (q (f (H.rest s ++ H.tail))) fun d _ => (H.rest s).length < d) :
    H.SeesFrom start (look >>= q) post := by
  refine ⟨moves_look hlook hq,fun s hs hstart => ?_⟩
  rw [bind_apply,bind_apply,hlook,hlook,H.rest_extend]
  dsimp only
  rcases hedge s hstart with h | h | ⟨hloose,h⟩
  · rw [h]
    exact (hq _).agrees s hs ⟨hstart,rfl⟩
  · rw [h]
    exact (hq _).agrees s hs ⟨hstart,rfl⟩
  · exact .of_lost hloose ((h _).imp (fun _ _ ht => astray_of_distance ht.2)
      fun _ _ _ => trivial)

/-- A look no further than what is read afterwards in any case. -/
theorem lookAhead_sees {n k : Nat} (hlook : ∀ s, look s = .ok (f (H.rest s)) s)
    (hf : ∀ rest, k ≤ rest.length → f (rest ++ H.tail) = f rest)
    (hq : ∀ b, H.SeesFrom (fun s => start s ∧ f (H.rest s) = b) (q b) fun d _ => n ≤ d)
    (hk : k ≤ n) : H.SeesFrom start (look >>= q) fun d _ => n ≤ d := by
  refine ⟨moves_look hlook hq,fun s hs hstart => ?_⟩
  by_cases hlength : k ≤ (H.rest s).length
  · rw [bind_apply,bind_apply,hlook,hlook,H.rest_extend,hf _ hlength]
    exact (hq _).agrees s hs ⟨hstart,rfl⟩
  · exact agrees_of_moves (moves_look hlook hq) (by omega)

end

end

end Horizon

end MangledNames
