import MangledNames.Proofs.Cursor
import MangledNames.Proofs.Node.Sound
set_option autoImplicit false

/-!
Reading productions only goes on through one text and only adds sound nodes to the table of
substitutions: the course of contexts, and what the ways to put productions together do to it.
-/

namespace MangledNames

@[simp] theorem Substitutions.toList_append (t : Substitutions) (node : Node) :
    (t.append node).toList = t.toList ++ [node] := by
  simp [toList,append]

theorem Substitutions.size_eq (t : Substitutions) : t.size = t.toList.length := by
  simp [size,toList]

theorem Substitutions.ext {a b : Substitutions} (h : a.toList = b.toList) : a = b := by
  obtain ⟨a⟩ := a
  obtain ⟨b⟩ := b
  simpa [toList,Array.toList_inj] using h

theorem Substitutions.restore_eq {before after : Substitutions} {added : List Node}
    (h : after.toList = before.toList ++ added) : after.restore before.size = .ok before := by
  have hsize : before.size ≤ after.size := by simp [size_eq,h]
  have htake : (⟨after.entries.shrink before.size⟩ : Substitutions) = before := by
    apply ext
    have hentries : after.entries.toList = before.toList ++ added := h
    simp [toList,hentries,size_eq]
  rw [restore,if_pos (by omega)]
  simpa using htake

namespace Grammar

open Course

def Context.moved (context : Context) (cursor : Cursor) : Context :=
  { context with cursor := cursor }

/-- The text is the same and the place further on, the table keeps its entries, and nothing else
changes. -/
structure Context.Onward (before after : Context) : Prop where
  cursor : before.cursor.Leads after.cursor
  entries : before.substitutions.toList <+: after.substitutions.toList
  recursionLimit : after.recursionLimit = before.recursionLimit
  depth : after.depth = before.depth
  templateArgsAllowed : after.templateArgsAllowed = before.templateArgsAllowed
  speculative : after.speculative = before.speculative

theorem Context.Onward.refl (context : Context) : context.Onward context :=
  ⟨.refl _,List.prefix_rfl,rfl,rfl,rfl,rfl⟩

theorem Context.Onward.trans {a b c : Context} (hab : a.Onward b) (hbc : b.Onward c) :
    a.Onward c :=
  ⟨hab.cursor.trans hbc.cursor,hab.entries.trans hbc.entries,
    hbc.recursionLimit.trans hab.recursionLimit,hbc.depth.trans hab.depth,
    hbc.templateArgsAllowed.trans hab.templateArgsAllowed,hbc.speculative.trans hab.speculative⟩

/-- A computation between two changes of the context, of which the second sees both ends of it. -/
def around {α : Type} (enter : Context → Context) (leave : Context → Context → Context)
    (m : Parser α) : Parser α := fun context =>
  match m (enter context) with
  | .ok a after => .ok a (leave context after)
  | .error fault after => .error fault (leave context after)

/-- Whatever the table hands out is sound. -/
def Context.Sound (context : Context) : Prop := ∀ node ∈ context.substitutions.toList, node.Sound

/-- The text is the same and the place further on, the table holds more sound nodes, and nothing
else changes. -/
structure Context.Leads (before after : Context) : Prop where
  cursor : before.cursor.Leads after.cursor
  entries : ∃ added, after.substitutions.toList = before.substitutions.toList ++ added ∧
    ∀ node ∈ added, node.Sound
  recursionLimit : after.recursionLimit = before.recursionLimit
  depth : after.depth = before.depth
  templateArgsAllowed : after.templateArgsAllowed = before.templateArgsAllowed
  speculative : after.speculative = before.speculative

theorem Context.Leads.onward {before after : Context} (h : before.Leads after) :
    before.Onward after := by
  obtain ⟨added,hadded,_⟩ := h.entries
  exact ⟨h.cursor,⟨added,hadded.symm⟩,h.recursionLimit,h.depth,h.templateArgsAllowed,h.speculative⟩

theorem Context.Leads.refl (context : Context) : context.Leads context :=
  ⟨.refl _,⟨[],by simp⟩,rfl,rfl,rfl,rfl⟩

theorem Context.Leads.trans {a b c : Context} (hab : a.Leads b) (hbc : b.Leads c) : a.Leads c := by
  obtain ⟨x,hx,hxs⟩ := hab.entries
  obtain ⟨y,hy,hys⟩ := hbc.entries
  refine ⟨hab.cursor.trans hbc.cursor,⟨x ++ y,by simp [hx,hy],?_⟩,
    hbc.recursionLimit.trans hab.recursionLimit,hbc.depth.trans hab.depth,
    hbc.templateArgsAllowed.trans hab.templateArgsAllowed,hbc.speculative.trans hab.speculative⟩
  intro node hnode
  rcases List.mem_append.mp hnode with h | h
  · exact hxs node h
  · exact hys node h

theorem Context.Leads.sound {a b : Context} (h : a.Leads b) (ha : a.Sound) : b.Sound := by
  obtain ⟨x,hx,hxs⟩ := h.entries
  intro node hnode
  rw [hx] at hnode
  rcases List.mem_append.mp hnode with hn | hn
  · exact ha node hn
  · exact hxs node hn

theorem Context.resolve_sound {context : Context} (h : context.Sound) {index : Int} {offset : Nat}
    {node : Node} (hnode : context.substitutions.resolve index offset = .ok node) : node.Sound := by
  unfold Substitutions.resolve at hnode
  split at hnode
  · cases hnode
  · split at hnode
    · rename_i found hfound
      cases hnode
      exact h _ (by simpa [Substitutions.toList] using Array.mem_of_getElem? hfound)
    · cases hnode

instance : Course Context where
  Sound := Context.Sound
  Leads := Context.Leads
  Fails := Fault.IsError
  progress context := context.cursor.position
  refl := Context.Leads.refl
  trans := Context.Leads.trans
  sound := Context.Leads.sound
  mono h := h.cursor.position_le

section
variable {α β : Type} {n k : Nat} {p : α → Prop} {p' : β → Prop}

theorem scanning_runsTo {scan : Scan α} {post : Nat → α → Prop} (h : RunsTo scan post) :
    RunsTo (liftM scan : Parser α) post := by
  refine ⟨fun context _ => ?_⟩
  have hc := h.ends context.cursor trivial
  change Ends _ _ (scanning scan context)
  unfold scanning
  cases hs : scan context.cursor with
  | ok a cursor =>
    rw [hs] at hc
    exact ⟨⟨hc.1,⟨[],by simp⟩,rfl,rfl,rfl,rfl⟩,hc.2⟩
  | error f cursor =>
    rw [hs] at hc
    exact ⟨⟨hc.1,⟨[],by simp⟩,rfl,rfl,rfl,rfl⟩,hc.2.isError⟩

theorem scanning_runs {scan : Scan α} (h : Runs n scan p) :
    Runs n (liftM scan : Parser α) p := scanning_runsTo h

theorem here_runs : Runs 0 here fun _ => True :=
  ⟨fun context _ => ⟨.refl context,Nat.zero_le _,trivial⟩⟩

theorem get_runs : Runs 0 (get : Parser Context) fun _ => True :=
  ⟨fun context _ => ⟨.refl context,Nat.zero_le _,trivial⟩⟩

theorem fail_runs (error : DemangleError) : Runs n (fail error : Parser α) p :=
  Runs.throw ⟨_,rfl⟩

theorem unexpected_runs (production : String) : Runs n (unexpected production : Parser α) p :=
  ⟨fun context _ => ⟨.refl context,_,rfl⟩⟩

theorem build_runs (node : Node) (hfits : node.wellFormed = true) (h : node.Sound) :
    Runs 0 (build node) Node.Sound := by
  simp only [build,hfits,if_true]
  exact Runs.pure h

theorem remember_runs {node : Node} (h : node.Sound) : Runs 0 (remember node) fun _ => True :=
  ⟨fun context _ =>
    ⟨⟨.refl _,⟨[node],by simp,by simpa using h⟩,rfl,rfl,rfl,rfl⟩,Nat.zero_le _,trivial⟩⟩

theorem remembered_runs {component : Parser Node} (h : Runs n component Node.Sound) :
    Runs n (remembered component) Node.Sound :=
  h.first fun _ hnode => (remember_runs hnode).first fun _ _ => Runs.pure hnode

/-- Runs from where a certain character comes next. -/
def RunsAt (next : Option Char) (n : Nat) (m : Parser α) (p : α → Prop) : Prop :=
  ∀ context, context.Sound → context.cursor.rest[0]? = next →
    Ends (fun a t => context.Leads t ∧ n ≤ t.cursor.position - context.cursor.position ∧ p a)
      (fun f t => context.Leads t ∧ f.IsError) (m context)

theorem RunsAt.of_runs {next : Option Char} {m : Parser α} (h : Runs n m p) :
    RunsAt next n m p := fun context hc _ => h.ends context hc

theorem RunsAt.rest {next : Option Char} {m : Parser α} (h : RunsAt next n m p) :
    RunsAt next 0 m p := fun context hc hnext =>
  (h context hc hnext).imp (fun _ _ ht => ⟨ht.1,Nat.zero_le _,ht.2.2⟩) fun _ _ ht => ht

theorem RunsAt.first {next : Option Char} {m : Parser α} {q : α → Parser β}
    (h : RunsAt next n m p) (hq : ∀ a, p a → Runs 0 (q a) p') :
    RunsAt next n (m >>= q) p' := by
  intro context hc hnext
  refine (h context hc hnext).bind ?_
  rintro a t ⟨hct,hn,ha⟩
  refine ((hq a ha).ends t (hct.sound hc)).imp ?_ fun f u hu => ⟨hct.trans hu.1,hu.2⟩
  intro b u ⟨htu,_,hb⟩
  have hle := htu.cursor.position_le
  exact ⟨hct.trans htu,by omega,hb⟩

theorem scanning_runsAt {next : Option Char} {scan : Scan α}
    (h : ∀ c : Cursor, c.rest[0]? = next → Ends (fun a t => c.Leads t ∧
      n ≤ t.position - c.position ∧ p a) (fun f t => c.Leads t ∧ f.IsMalformed) (scan c)) :
    RunsAt next n (liftM scan : Parser α) p := by
  intro context _ hnext
  have hc := h context.cursor hnext
  change Ends _ _ (scanning scan context)
  unfold scanning
  cases hs : scan context.cursor with
  | ok a cursor =>
    rw [hs] at hc
    exact ⟨⟨hc.1,⟨[],by simp⟩,rfl,rfl,rfl,rfl⟩,hc.2⟩
  | error f cursor =>
    rw [hs] at hc
    exact ⟨⟨hc.1,⟨[],by simp⟩,rfl,rfl,rfl,rfl⟩,hc.2.isError⟩

theorem peek_runsAt {q : Option Char → Parser β} (h : ∀ next, RunsAt next n (q next) p') :
    Runs n (liftM (Cursor.peek 0) >>= q) p' := ⟨fun context hc => h _ context hc rfl⟩

theorem peekIs_runsAt {ofClass : Char → Bool} {q : Bool → Parser β}
    (h : ∀ next : Option Char, RunsAt next n (q (next.any ofClass)) p') :
    Runs n (liftM (Cursor.peekIs ofClass 0) >>= q) p' := ⟨fun context hc => h _ context hc rfl⟩

theorem nested_runsAt {next : Option Char} {body : Parser α} (h : RunsAt next n body p) :
    RunsAt next n (nested body) p := by
  intro context hc hnext
  have hb := h { context with depth := context.depth + 1 } hc hnext
  unfold nested
  cases hr : body { context with depth := context.depth + 1 } with
  | ok a after =>
    rw [hr] at hb
    obtain ⟨hl,hp⟩ := hb
    exact ⟨⟨hl.cursor,hl.entries,hl.recursionLimit,rfl,hl.templateArgsAllowed,hl.speculative⟩,hp⟩
  | error f after =>
    rw [hr] at hb
    obtain ⟨hl,hf⟩ := hb
    exact ⟨⟨hl.cursor,hl.entries,hl.recursionLimit,rfl,hl.templateArgsAllowed,hl.speculative⟩,hf⟩

theorem nested_runs {body : Parser α} (h : Runs n body p) : Runs n (nested body) p :=
  ⟨fun context hc => nested_runsAt (.of_runs h) context hc rfl⟩

theorem allowingTemplateArgs_runs (allowed : Bool) {body : Parser α} (h : Runs n body p) :
    Runs n (allowingTemplateArgs allowed body) p := by
  refine ⟨fun context hc => ?_⟩
  have hb := h.ends { context with templateArgsAllowed := allowed } hc
  unfold allowingTemplateArgs
  cases hr : body { context with templateArgsAllowed := allowed } with
  | ok a after =>
    rw [hr] at hb
    obtain ⟨hl,hp⟩ := hb
    exact ⟨⟨hl.cursor,hl.entries,hl.recursionLimit,hl.depth,rfl,hl.speculative⟩,hp⟩
  | error f after =>
    rw [hr] at hb
    obtain ⟨hl,hf⟩ := hb
    exact ⟨⟨hl.cursor,hl.entries,hl.recursionLimit,hl.depth,rfl,hl.speculative⟩,hf⟩

/-- A round that goes on with what `i` says of, or is done with what `p` says of. -/
def Round.Keeps {γ : Type} (i : γ → Prop) (p : β → Prop) : Round γ β → Prop
  | .again a => i a
  | .done b => p b

/-- A round that goes on has read at least one character. -/
def RoundGood {γ : Type} (i : γ → Prop) (p' : β → Prop) (d : Nat) : Round γ β → Prop
  | .again a => 1 ≤ d ∧ i a
  | .done b => p' b

theorem repeatWithin_runs {γ : Type} {round : γ → Parser (Round γ β)} {i : γ → Prop}
    (h : ∀ a, i a → RunsTo (round a) (RoundGood i p')) (bound : List Char) (a : γ)
    (ha : i a) (context : Context) (hc : context.Sound)
    (hbound : context.cursor.rest.length ≤ bound.length) :
    Ends (fun b t => context.Leads t ∧ p' b) (fun f t => context.Leads t ∧ f.IsError)
      (repeatWithin round bound a context) := by
  -- On the bound: a round that goes on has read something, so that the bound covers what is left.
  induction bound generalizing a context with
  | nil =>
    unfold repeatWithin
    refine ((h a ha).ends context hc).bind ?_
    rintro (a | b) t ⟨hct,hp⟩
    · have hpos : 1 ≤ t.cursor.position - context.cursor.position := hp.1
      have hlen := hct.cursor.length_eq
      simp only [Cursor.length,Cursor.position] at hlen hpos
      simp at hbound
      simp [hbound] at hlen
      omega
    · exact ⟨hct,hp⟩
  | cons x bound ih =>
    unfold repeatWithin
    refine ((h a ha).ends context hc).bind ?_
    rintro (a | b) t ⟨hct,hp⟩
    · obtain ⟨hpos,ha⟩ := hp
      have hpos : 1 ≤ t.cursor.position - context.cursor.position := hpos
      have hlen := hct.cursor.length_eq
      simp only [Cursor.length,Cursor.position,List.length_cons] at hlen hpos hbound
      refine (ih a ha t (hct.sound hc) (by omega)).imp ?_ ?_
      · exact fun b u hu => ⟨hct.trans hu.1,hu.2⟩
      · exact fun f u hu => ⟨hct.trans hu.1,hu.2⟩
    · exact ⟨hct,hp⟩

/-- What every round keeps holds of a repetition, and the bound on rounds is never met. -/
theorem repeatRound_runs {γ : Type} {round : γ → Parser (Round γ β)} {i : γ → Prop} {a : γ}
    (ha : i a) (h : ∀ a, i a → RunsTo (round a) (RoundGood i p')) :
    Runs 0 (repeatRound round a) p' := by
  refine ⟨fun context hc => ?_⟩
  change Ends _ _ (repeatWithin round context.cursor.rest a context)
  refine (repeatWithin_runs h _ a ha context hc (Nat.le_refl _)).imp ?_ fun _ _ ht => ht
  exact fun b t ht => ⟨ht.1,Nat.zero_le _,ht.2⟩

theorem repeatRound_runs_of_one {γ : Type} {round : γ → Parser (Round γ β)} {i : γ → Prop}
    {a : γ} (ha : i a) (h : ∀ a, i a → Runs 1 (round a) (RoundGood i p' 1)) :
    Runs 0 (repeatRound round a) p' := by
  refine repeatRound_runs ha fun a ha => RunsTo.imp (h a ha) ?_
  rintro d (a | b) ⟨hd,hround⟩
  · exact ⟨hd,hround.2⟩
  · exact hround

theorem itemsUntil_runs {listEnd : Parser Bool} {item : Parser α}
    (hend : Runs 0 listEnd fun _ => True) (hitem : Runs 1 item p) :
    Runs 0 (itemsUntil listEnd item) fun items => ∀ a ∈ items, p a := by
  refine repeatRound_runs (i := fun items => ∀ a ∈ items, p a) (by simp) ?_
  intro items hitems
  refine RunsTo.bind hend fun d atEnd _ => RunsTo.ite (fun _ => ?_) fun _ => ?_
  · exact RunsTo.pure (by simpa [RoundGood] using hitems)
  · refine RunsTo.bind hitem fun e a ha => RunsTo.pure ⟨by omega,?_⟩
    simpa [ha.2] using hitems

theorem itemsToE_runs {item : Parser α} (hitem : Runs 1 item p) :
    Runs 0 (itemsToE item) fun items => ∀ a ∈ items, p a :=
  itemsUntil_runs (scanning_runs (Cursor.consume_runs "E")) hitem

/-- A trial ends with a value, with the answer that the text does not fit, or with an error that is
none of the text. Trials do not nest. -/
theorem trial_ends {body : Parser α} (h : Runs n body p) {context : Context}
    (hc : context.Sound) (hspeculative : context.speculative = false) :
    Ends (fun found t => context.Leads t ∧ ∀ a, found = some a →
        n ≤ t.cursor.position - context.cursor.position ∧ p a)
      (fun f t => context.Leads t ∧ f.IsError) (trial body context) := by
  have hb := h.ends { context with speculative := true } hc
  have restored : ∀ {after : Context}, Context.Leads { context with speculative := true } after →
      context.Leads { after with speculative := false } := fun hl =>
    ⟨hl.cursor,hl.entries,hl.recursionLimit,hl.depth,hl.templateArgsAllowed,hspeculative.symm⟩
  unfold trial
  cases hr : body { context with speculative := true } with
  | ok a after =>
    rw [hr] at hb
    exact ⟨restored hb.1,fun _ ha => by cases ha; exact hb.2⟩
  | error fault after =>
    rw [hr] at hb
    obtain ⟨hl,e,rfl⟩ := hb
    dsimp only
    split
    · exact ⟨restored hl,by simp⟩
    · exact ⟨restored hl,_,rfl⟩

/-- What a trial read or added is given up without a trace. -/
theorem abandon_apply {before after : Context} (h : before.Onward after) :
    abandon before.cursor.position before.substitutions.size after = .ok ⟨⟩ before := by
  obtain ⟨added,hadded⟩ := h.entries
  have hcursor : (liftM (Cursor.restore before.cursor.position) : Parser Unit) after =
      .ok ⟨⟩ { after with cursor := before.cursor } := by
    change scanning _ after = _
    simp [scanning,Cursor.restore_apply h.cursor]
  have hrest : ({ after with
      cursor := before.cursor, substitutions := before.substitutions } : Context) = before := by
    obtain ⟨cursor,substitutions,_,_,_,_⟩ := before
    simp [h.recursionLimit,h.depth,h.templateArgsAllowed,h.speculative]
  simp [abandon,hcursor,Substitutions.restore_eq hadded.symm,hrest]

end

end Grammar

end MangledNames
