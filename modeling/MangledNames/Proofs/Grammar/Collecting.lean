import MangledNames.Proofs.Grammar.Trial
import MangledNames.Proofs.Printing.BareTexts
import MangledNames.Proofs.Printing.Declarators
set_option autoImplicit false

/-!
Reading collects nodes whose digits and suffixes have no marks: what the ways to put productions
together keep of that, and the words of the grammar.
-/

namespace MangledNames

open Printing

/-- Every part of the tree is as it is read. -/
abbrev Node.Plain (node : Node) : Prop := node.Throughout AsRead

namespace Node.Plain

theorem single {node part : Node} (hself : AsRead node) (hparts : node.children = [part])
    (h : part.Plain) : node.Plain :=
  .of_children hself (by simpa [hparts] using h)

theorem pair {node part part' : Node} (hself : AsRead node) (hparts : node.children = [part,part'])
    (h : part.Plain) (h' : part'.Plain) : node.Plain :=
  .of_children hself (by simpa [hparts] using ⟨h,h'⟩)

theorem templateArgs {nodes : List Node} (h : ∀ node ∈ nodes, node.Plain) :
    (Node.templateArgs nodes).Plain :=
  .of_children trivial (by simpa [children,fields] using h)

theorem arguments {arguments : Option (List Node)} (h : ∀ node ∈ arguments.getD [], node.Plain) :
    ∀ node ∈ (Field.arguments arguments).nodes, node.Plain := by
  cases arguments with
  | none => exact nofun
  | some nodes => simpa [Field.arguments,Field.nodes] using templateArgs h

theorem templateName {name : Node} {arguments : List Node} (h : name.Plain)
    (harguments : ∀ node ∈ arguments, node.Plain) : (Node.templateName name arguments).Plain :=
  .pair trivial rfl h (templateArgs harguments)

theorem nestedName {scope name : Node} (hscope : scope.Plain) (h : name.Plain) :
    (Node.nestedName scope name).Plain :=
  .pair trivial rfl hscope h

theorem sourceName (name : String) : (Node.sourceName name).Plain := .of_children trivial nofun

theorem className {node : Node} (h : node.Plain) : node.className.Plain := by
  fun_induction Node.className node with
  | case1 scope name ih => exact ih (h.child (by simp [children,fields]))
  | case2 name arguments ih => exact ih (h.child (by simp [children,fields]))
  | case3 name tags ih => exact ih (h.child (by simp [children,fields]))
  | case4 name expanded => exact sourceName _
  | case5 => exact h

end Node.Plain

namespace Grammar

open Cursor

def Context.Plain (context : Context) : Prop := ∀ node ∈ context.substitutions.toList, node.Plain

/-- A run that adds nothing else to the table, and gives what is as `p` says. -/
structure Collects {α : Type} (m : Parser α) (p : α → Prop) : Prop where
  ends : ∀ context : Context, context.Plain →
    Ends (fun a after => after.Plain ∧ p a) (fun _ after => after.Plain) (m context)

section
variable {α β γ : Type} {m : Parser α} {q : α → Parser β} {p : α → Prop} {g : β → Prop}

namespace Collects

theorem pure {a : α} (h : p a) : Collects (Pure.pure a) p := ⟨fun _ hc => ⟨hc,h⟩⟩

theorem throw (fault : Fault) : Collects (MonadExcept.throw fault : Parser α) p := ⟨fun _ hc => hc⟩

theorem fail (error : DemangleError) : Collects (Grammar.fail error : Parser α) p :=
  ⟨fun _ hc => hc⟩

theorem unexpected (production : String) : Collects (Grammar.unexpected production : Parser α) p :=
  ⟨fun _ hc => hc⟩

theorem bind (h : Collects m p) (hq : ∀ a, p a → Collects (q a) g) :
    Collects (m >>= q) g :=
  ⟨fun context hc => (h.ends context hc).bind fun a after ha => (hq a ha.2).ends after ha.1⟩

theorem map {f : α → β} (h : Collects m p) (hf : ∀ a, p a → g (f a)) :
    Collects (f <$> m) g := by
  rw [map_eq_pure_bind]
  exact h.bind fun a ha => .pure (hf a ha)

theorem ite {c : Prop} [Decidable c] {m m' : Parser α} (h : c → Collects m p)
    (h' : ¬c → Collects m' p) : Collects (if c then m else m') p := by
  split
  · exact h ‹_›
  · exact h' ‹_›

theorem failing (h : Collects m fun _ => False) : Collects (m >>= q) g := h.bind nofun

theorem guard {c : Prop} [Decidable c] {check : Parser PUnit} {next : PUnit → Parser α}
    (hcheck : Collects check fun _ => False) (hnext : Collects (next ⟨⟩) p) :
    Collects (if c then check >>= next else next ⟨⟩) p :=
  ite (fun _ => hcheck.failing) fun _ => hnext

theorem guardNot {c : Prop} [Decidable c] {check : Parser PUnit} {next : PUnit → Parser α}
    (hcheck : Collects check fun _ => False) (hnext : Collects (next ⟨⟩) p) :
    Collects (if c then next ⟨⟩ else check >>= next) p :=
  ite (fun _ => hnext) fun _ => hcheck.failing

theorem ofScan {reader : Scan α} (h : ∀ cursor a after, reader cursor = .ok a after → p a) :
    Collects (liftM reader) p := by
  refine ⟨fun context hc => ?_⟩
  change Ends _ _ (scanning reader context)
  unfold scanning
  cases hread : reader context.cursor with
  | ok a cursor => exact ⟨hc,h _ a cursor hread⟩
  | error fault cursor => exact hc

theorem scan {reader : Scan α} (hq : ∀ a, Collects (q a) g) : Collects (liftM reader >>= q) g :=
  (ofScan (p := fun _ => True) fun _ _ _ _ => trivial).bind fun a _ => hq a

theorem here {q : Cursor → Parser β} (hq : ∀ cursor, Collects (q cursor) g) :
    Collects (Grammar.here >>= q) g :=
  ⟨fun context hc => (hq context.cursor).ends context hc⟩

theorem get {q : Context → Parser β}
    (hq : ∀ context : Context, context.Plain → Collects (q context) g) :
    Collects (MonadState.get >>= q) g :=
  ⟨fun context hc => (hq context hc).ends context hc⟩

theorem build {node : Node} (h : node.Plain) : Collects (Grammar.build node) Node.Plain := by
  unfold Grammar.build
  exact .ite (fun _ => .pure h) fun _ => .throw _

theorem remember {node : Node} {q : Unit → Parser β} (h : node.Plain) (hq : Collects (q ()) g) :
    Collects (Grammar.remember node >>= q) g := by
  refine ⟨fun context hc => hq.ends _ ?_⟩
  simpa [Context.Plain,or_imp,forall_and] using ⟨hc,h⟩

theorem remembered {component : Parser Node} (h : Collects component Node.Plain) :
    Collects (Grammar.remembered component) Node.Plain :=
  h.bind fun _ hnode => .remember hnode (.pure hnode)

theorem nested (h : Collects m p) : Collects (Grammar.nested m) p := by
  refine ⟨fun context hc => ?_⟩
  have hm := h.ends { context with depth := context.depth + 1 } hc
  unfold Grammar.nested
  cases hresult : m { context with depth := context.depth + 1 } <;> rw [hresult] at hm <;> exact hm

theorem allowingTemplateArgs (allowed : Bool) (h : Collects m p) :
    Collects (Grammar.allowingTemplateArgs allowed m) p := by
  refine ⟨fun context hc => ?_⟩
  have hm := h.ends { context with templateArgsAllowed := allowed } hc
  unfold Grammar.allowingTemplateArgs
  cases hresult : m { context with templateArgsAllowed := allowed } <;>
    rw [hresult] at hm <;> exact hm

theorem trial (h : Collects m p) :
    Collects (Grammar.trial m) fun found => ∀ a, found = some a → p a := by
  refine ⟨fun context hc => ?_⟩
  have hm := h.ends { context with speculative := true } hc
  unfold Grammar.trial
  cases hresult : m { context with speculative := true } with
  | ok a after =>
    rw [hresult] at hm
    exact ⟨hm.1,by rintro _ ⟨⟩; exact hm.2⟩
  | error fault after =>
    rw [hresult] at hm
    cases fault with
    | error error =>
      dsimp only
      split
      · exact ⟨hm,nofun⟩
      · exact hm
    | broken promise => exact hm

/-- What a trial added is dropped, and what stood before it stays. -/
theorem abandon (cursorCheckpoint substitutionsCheckpoint : Nat) :
    Collects (Grammar.abandon cursorCheckpoint substitutionsCheckpoint) fun _ => True := by
  unfold Grammar.abandon
  refine .scan fun _ => .get fun context hc => ?_
  unfold Substitutions.restore
  split
  · rename_i substitutions hrestored
    split at hrestored
    · cases hrestored
      refine ⟨fun _ _ => ⟨fun node hnode => hc node ?_,trivial⟩⟩
      have hmem : node ∈ context.substitutions.toList.take substitutionsCheckpoint := by
        simpa [Substitutions.toList] using hnode
      exact List.mem_of_mem_take hmem
    · cases hrestored
  · exact .throw _

end Collects

namespace Collects

theorem repeatRound {round : γ → Parser (Round γ β)} {i : γ → Prop} {a : γ} (ha : i a)
    (h : ∀ a, i a → Collects (round a) (Round.Keeps i g)) :
    Collects (Grammar.repeatRound round a) g := by
  have within : ∀ (bound : List Char) (a : γ), i a → Collects (repeatWithin round bound a) g := by
    intro bound
    induction bound with
    | nil =>
      intro a ha
      unfold repeatWithin
      refine (h a ha).bind fun result hresult => ?_
      cases result with
      | again a => exact .throw _
      | done b => exact .pure hresult
    | cons x bound ih =>
      intro a ha
      unfold repeatWithin
      refine (h a ha).bind fun result hresult => ?_
      cases result with
      | again a => exact ih a hresult
      | done b => exact .pure hresult
  exact .here fun cursor => within _ a ha

theorem itemsUntil {listEnd : Parser Bool} (hend : Collects listEnd fun _ => True)
    (h : Collects m p) :
    Collects (Grammar.itemsUntil listEnd m) fun items => ∀ a ∈ items, p a := by
  refine repeatRound (i := fun items => ∀ a ∈ items, p a) nofun fun items hitems => ?_
  refine hend.bind fun atEnd _ => .ite (fun _ => .pure ?_) fun _ => h.bind fun a ha => .pure ?_
  · simpa [Round.Keeps] using hitems
  · exact List.forall_mem_cons.mpr ⟨ha,hitems⟩

theorem itemsToE (h : Collects m p) :
    Collects (Grammar.itemsToE m) fun items => ∀ a ∈ items, p a :=
  itemsUntil (ofScan fun _ _ _ _ => trivial) h

end Collects

end

theorem digits_collects (production : String) : Collects (liftM (digits production)) Unmarked := by
  refine .ofScan fun cursor found after h => ?_
  cases htake : cursor.rest.takeWhile isDigit with
  | nil =>
    have hdigits : digits production cursor = Cursor.unexpected production cursor := by
      simp [digits,htake]
    rw [hdigits] at h
    cases h
  | cons x read =>
    simp only [digits,bind_apply,get_apply,htake,set_apply,pure_apply] at h
    cases h
    intro c hc
    rw [← htake] at hc
    exact not_isMark_of_class (List.all_eq_true.mp List.all_takeWhile c hc) (by decide)

theorem properName_collects : Collects properName fun _ => True := by
  unfold properName
  exact .scan fun _ => (Collects.build (.sourceName _)).bind fun _ _ => .pure trivial

theorem sourceName_collects : Collects sourceName Node.Plain :=
  properName_collects.map fun name _ => .sourceName name

theorem templateParam_collects : Collects templateParam Node.Plain := by
  have param : ∀ index, Collects (pure (.templateParam index)) Node.Plain := fun _ =>
    .pure (.of_children trivial nofun)
  unfold templateParam
  refine .here fun start => .scan fun _ => .scan fun _ =>
    .guard (.fail _) (.scan fun _ => .guard (.fail _) ?_)
  exact .scan fun _ => .ite (fun _ => param _) fun _ => .scan fun _ => .scan fun _ => param _

theorem tableEntry_collects (index offset : Nat) :
    Collects (do
      match (← get).substitutions.resolve index offset with
      | .ok node => return node
      | .error error => fail error : Parser Node) Node.Plain := by
  refine .get fun context hc => ?_
  unfold Substitutions.resolve
  split
  · rename_i node hnode
    split at hnode
    · cases hnode
    · split at hnode
      · rename_i found hfound
        cases hnode
        exact .pure (hc _ (by simpa [Substitutions.toList] using Array.mem_of_getElem? hfound))
      · cases hnode
  · exact .fail _

theorem substitution_collects : Collects substitution Node.Plain := by
  unfold substitution
  refine .here fun start => .scan fun _ => .scan fun _ =>
      .ite (fun _ => .scan fun letter => ?_) fun _ =>
    .scan fun _ => .ite (fun _ => ?_) fun _ => ?_
  · split
    · exact .pure (.of_children trivial (List.forall_mem_nil _))
    · exact .fail _
  · exact (Collects.pure (p := fun _ => True) trivial).bind fun index _ =>
      tableEntry_collects index start.position
  · exact .scan fun _ => .scan fun _ => (Collects.pure (p := fun _ => True) trivial).bind
      fun index _ => tableEntry_collects index start.position

end Grammar

end MangledNames
