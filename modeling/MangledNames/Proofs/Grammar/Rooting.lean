import MangledNames.Proofs.Grammar.Reading
set_option autoImplicit false

/-!
The table of substitutions is closed: what an entry is made of is builtin, abbreviated or an entry
before it. What that means, and what the ways to put productions together keep of it.
-/

namespace MangledNames

namespace Node

def IsBuiltin (node : Node) : Prop := ∃ type, node = .builtinType type

def IsAbbreviation (node : Node) : Prop :=
  ∃ name expanded, node = .specialSubstitution name expanded

/-- The types that a type is made of. -/
def components : Node → List Node
  | qualifiedType inner _ | vendorQualifiedType inner _ _ | pointerType inner
  | referenceType inner _ | complexType inner | imaginaryType inner | packExpansion inner
  | arrayType inner _ | vectorType inner _ => [inner]
  | pointerToMemberType classType memberType => [classType,memberType]
  | functionType f =>
    match f.exceptionSpec with
    | some (.throwing types) => f.returnType :: (f.parameters ++ types)
    | _ => f.returnType :: f.parameters
  | _ => []

theorem mem_components_functionType {f : FunctionType Node} {type : Node}
    (h : type ∈ (functionType f).components) : type = f.returnType ∨ type ∈ f.parameters ∨
      ∃ types, f.exceptionSpec = some (.throwing types) ∧ type ∈ types := by
  unfold components at h
  cases hspec : f.exceptionSpec with
  | none => simpa [hspec] using h
  | some spec =>
    cases spec with
    | noexcept condition => simpa [hspec] using h
    | throwing types => simpa [hspec] using h

/-- What a template takes its arguments on, and what a nested name is in. -/
def stem? : Node → Option Node
  | templateName name _ => some name
  | nestedName scope _ => some scope
  | _ => none

/-- A type that needs no entry, or has one. -/
def Known (earlier : List Node) (type : Node) : Prop :=
  type.IsBuiltin ∨ type.IsAbbreviation ∨ type ∈ earlier

/-- A scope that needs no entry, or has one. -/
def KnownScope (earlier : List Node) (scope : Node) : Prop :=
  scope = .std ∨ scope.IsAbbreviation ∨ scope ∈ earlier

/-- What may stand in a table behind the entries that are there. -/
structure Rooted (earlier : List Node) (node : Node) : Prop where
  not_builtin : ¬node.IsBuiltin
  components : ∀ type ∈ node.components, type.Known earlier
  stem : ∀ scope ∈ node.stem?, scope.KnownScope earlier

section
variable {earlier later : List Node} {node : Node}

theorem Known.mono (h : node.Known earlier) (hle : earlier <+: later) : node.Known later :=
  h.imp_right fun h => h.imp_right fun h => hle.subset h

theorem KnownScope.mono (h : node.KnownScope earlier) (hle : earlier <+: later) :
    node.KnownScope later :=
  h.imp_right fun h => h.imp_right fun h => hle.subset h

theorem Rooted.mono (h : node.Rooted earlier) (hle : earlier <+: later) : node.Rooted later :=
  ⟨h.not_builtin,fun type htype => (h.components type htype).mono hle,
    fun scope hscope => (h.stem scope hscope).mono hle⟩

theorem Rooted.simple (hbuiltin : ∀ type, node ≠ .builtinType type)
    (hcomponents : node.components = []) (hstem : node.stem? = none) : node.Rooted earlier :=
  ⟨fun ⟨type,h⟩ => hbuiltin type h,hcomponents ▸ nofun,hstem ▸ nofun⟩

theorem Rooted.type (hbuiltin : ∀ type, node ≠ .builtinType type)
    (hcomponents : ∀ type ∈ node.components, type.Known earlier) (hstem : node.stem? = none) :
    node.Rooted earlier :=
  ⟨fun ⟨type,h⟩ => hbuiltin type h,hcomponents,hstem ▸ nofun⟩

theorem Rooted.templateName {name : Node} (h : name.KnownScope earlier) (arguments : List Node) :
    (Node.templateName name arguments).Rooted earlier :=
  ⟨nofun,nofun,by rintro _ ⟨⟩; exact h⟩

theorem Rooted.nestedName {scope : Node} (h : scope.KnownScope earlier) (name : Node) :
    (Node.nestedName scope name).Rooted earlier :=
  ⟨nofun,nofun,by rintro _ ⟨⟩; exact h⟩

end

end Node

/-- Every entry is made of what stands before it. -/
def ClosedTable (entries : List Node) : Prop :=
  ∀ (i : Nat) (entry : Node), entries[i]? = some entry → entry.Rooted (entries.take i)

section
variable {entries : List Node} {node : Node}

theorem ClosedTable.concat (h : ClosedTable entries) (hnode : node.Rooted entries) :
    ClosedTable (entries ++ [node]) := by
  intro i entry hentry
  rcases Nat.lt_trichotomy i entries.length with hi | rfl | hi
  · rw [List.getElem?_append_left hi] at hentry
    rw [List.take_append_of_le_length (Nat.le_of_lt hi)]
    exact h i entry hentry
  · rw [List.getElem?_concat_length] at hentry
    cases hentry
    rw [List.take_left]
    exact hnode
  · rw [List.getElem?_eq_none (by simp; omega)] at hentry
    cases hentry

theorem ClosedTable.rooted (h : ClosedTable entries) (hnode : node ∈ entries) :
    node.Rooted entries := by
  obtain ⟨i,hi,rfl⟩ := List.mem_iff_getElem.mp hnode
  exact (h i _ (List.getElem?_eq_getElem hi)).mono (List.take_prefix i entries)

theorem ClosedTable.rooted_of_known (h : ClosedTable entries)
    (hnode : node = .std ∨ node.IsAbbreviation ∨ node ∈ entries) : node.Rooted entries := by
  rcases hnode with rfl | ⟨name,expanded,rfl⟩ | hnode
  · exact .simple nofun rfl rfl
  · exact .simple nofun rfl rfl
  · exact h.rooted hnode

end

namespace Grammar

open Cursor

abbrev Context.entries (context : Context) : List Node := context.substitutions.toList

/-- From a context with a closed table the run adds to the table, keeps it closed, and gives what is
as `p` says. A run that fails only adds to the table. -/
structure ClosesFrom {α : Type} (context : Context) (m : Parser α)
    (p : Context → α → Prop) : Prop where
  ends : ClosedTable context.entries →
    Ends (fun a after => ClosedTable after.entries ∧ context.entries <+: after.entries ∧ p after a)
      (fun _ after => context.entries <+: after.entries) (m context)

/-- As `ClosesFrom`, from every context. -/
structure Closes {α : Type} (m : Parser α) (p : Context → α → Prop) : Prop where
  starting : ∀ context, ClosesFrom context m p

/-- A run whose value does not matter. -/
abbrev Closing {α : Type} (m : Parser α) : Prop := Closes m fun _ _ => True

section
variable {α β γ : Type} {m m' : Parser α} {q : α → Parser β} {p : Context → α → Prop}
  {g : Context → β → Prop} {context : Context}

namespace ClosesFrom

theorem imp {p' : Context → α → Prop} (h : ClosesFrom context m p)
    (hp : ∀ after a, p after a → p' after a) :
    ClosesFrom context m p' :=
  ⟨fun hc => (h.ends hc).imp (fun a after ha => ⟨ha.1,ha.2.1,hp after a ha.2.2⟩) fun _ _ h => h⟩

/-- The table may be taken to be closed. -/
theorem closed (h : ClosedTable context.entries → ClosesFrom context m p) :
    ClosesFrom context m p :=
  ⟨fun hc => (h hc).ends hc⟩

theorem pure {a : α} (h : p context a) : ClosesFrom context (Pure.pure a) p :=
  ⟨fun hc => ⟨hc,List.prefix_rfl,h⟩⟩

theorem throw (fault : Fault) : ClosesFrom context (MonadExcept.throw fault : Parser α) p :=
  ⟨fun _ => List.prefix_rfl⟩

theorem fail (error : DemangleError) : ClosesFrom context (Grammar.fail error : Parser α) p :=
  ⟨fun _ => List.prefix_rfl⟩

theorem unexpected (production : String) :
    ClosesFrom context (Grammar.unexpected production : Parser α) p :=
  ⟨fun _ => List.prefix_rfl⟩

theorem bind (h : ClosesFrom context m p)
    (hq : ∀ a after, context.entries <+: after.entries → p after a → ClosesFrom after (q a) g) :
    ClosesFrom context (m >>= q) g := by
  refine ⟨fun hc => ?_⟩
  have hm := h.ends hc
  rw [bind_apply]
  cases hresult : m context with
  | ok a after =>
    rw [hresult] at hm
    obtain ⟨hafter,hle,ha⟩ := hm
    exact ((hq a after hle ha).ends hafter).imp (fun _ _ hb => ⟨hb.1,hle.trans hb.2.1,hb.2.2⟩)
      fun _ _ hb => hle.trans hb
  | error fault after =>
    rw [hresult] at hm
    exact hm

theorem map {f : α → β} (h : ClosesFrom context m p)
    (hf : ∀ a after, context.entries <+: after.entries → p after a → g after (f a)) :
    ClosesFrom context (f <$> m) g := by
  rw [map_eq_pure_bind]
  exact h.bind fun a after hle ha => .pure (hf a after hle ha)

theorem ite {c : Prop} [Decidable c] (h : c → ClosesFrom context m p)
    (h' : ¬c → ClosesFrom context m' p) : ClosesFrom context (if c then m else m') p := by
  split
  · exact h ‹_›
  · exact h' ‹_›

theorem failing (h : ClosesFrom context m fun _ _ => False) : ClosesFrom context (m >>= q) g :=
  h.bind fun _ _ _ hfalse => hfalse.elim

theorem guard {c : Prop} [Decidable c] {check : Parser PUnit} {next : PUnit → Parser α}
    (hcheck : ClosesFrom context check fun _ _ => False) (hnext : ClosesFrom context (next ⟨⟩) p) :
    ClosesFrom context (if c then check >>= next else next ⟨⟩) p :=
  ite (fun _ => hcheck.failing) fun _ => hnext

theorem reading {reader : Scan α}
    (h : ∀ a cursor, reader context.cursor = .ok a cursor → p (context.moved cursor) a) :
    ClosesFrom context (liftM reader) p := by
  refine ⟨fun hc => ?_⟩
  change Ends _ _ (scanning reader context)
  unfold scanning
  cases hread : reader context.cursor with
  | ok a cursor => exact ⟨hc,List.prefix_rfl,h a cursor hread⟩
  | error fault cursor => exact List.prefix_rfl

theorem scan {reader : Scan α} (hq : ∀ a cursor, reader context.cursor = .ok a cursor →
      ClosesFrom (context.moved cursor) (q a) g) : ClosesFrom context (liftM reader >>= q) g := by
  refine ⟨fun hc => ?_⟩
  change Ends _ _ ((scanning reader >>= q) context)
  rw [bind_apply,scanning]
  cases hread : reader context.cursor with
  | ok a cursor => exact (hq a cursor hread).ends hc
  | error fault cursor => exact List.prefix_rfl

theorem here {q : Cursor → Parser β} (hq : ClosesFrom context (q context.cursor) g) :
    ClosesFrom context (Grammar.here >>= q) g := ⟨fun hc => hq.ends hc⟩

theorem get {q : Context → Parser β} (hq : ClosesFrom context (q context) g) :
    ClosesFrom context (MonadState.get >>= q) g := ⟨fun hc => hq.ends hc⟩

theorem build {node : Node} {p : Context → Node → Prop} (h : p context node) :
    ClosesFrom context (Grammar.build node) p := by
  unfold Grammar.build
  exact .ite (fun _ => .pure h) fun _ => .throw _

theorem remember {node : Node} {q : Unit → Parser β} (h : node.Rooted context.entries)
    (hq : ∀ after : Context, context.entries <+: after.entries → node ∈ after.entries →
      ClosesFrom after (q ()) g) : ClosesFrom context (Grammar.remember node >>= q) g := by
  refine ⟨fun hc => ?_⟩
  have hentries :
    ({ context with substitutions := context.substitutions.append node } : Context).entries =
      context.entries ++ [node] := Substitutions.toList_append _ _
  have hle : context.entries <+: context.entries ++ [node] := List.prefix_append _ _
  have hrest := (hq { context with substitutions := context.substitutions.append node }
    (hentries ▸ hle) (hentries ▸ List.mem_concat_self)).ends (hentries ▸ hc.concat h)
  exact hrest.imp (fun _ _ hb => ⟨hb.1,(hentries ▸ hle).trans hb.2.1,hb.2.2⟩)
    fun _ _ hb => (hentries ▸ hle).trans hb

theorem remembered {component : Parser Node}
    (h : ClosesFrom context component fun after node => node.Rooted after.entries) :
    ClosesFrom context (Grammar.remembered component) fun after node => node.Known after.entries :=
  h.bind fun _ _ _ hnode => .remember hnode fun _ _ hmem => .pure (.inr (.inr hmem))

end ClosesFrom

namespace ClosesFrom

/-- What every round keeps, in the context that it is in. -/
theorem repeatRound {round : γ → Parser (Round γ β)} {i : Context → γ → Prop}
    (h : ∀ context a, i context a →
      ClosesFrom context (round a) fun after => Round.Keeps (i after) (g after)) {a : γ} (ha :
      i context a) :
    ClosesFrom context (Grammar.repeatRound round a) g := by
  have within : ∀ (bound : List Char) (context : Context) (a : γ), i context a →
      ClosesFrom context (repeatWithin round bound a) g := by
    intro bound
    induction bound with
    | nil =>
      intro context a ha
      unfold repeatWithin
      refine (h context a ha).bind fun result after _ hresult => ?_
      cases result with
      | again a => exact .throw _
      | done b => exact .pure hresult
    | cons x bound ih =>
      intro context a ha
      unfold repeatWithin
      refine (h context a ha).bind fun result after _ hresult => ?_
      cases result with
      | again a => exact ih after a hresult
      | done b => exact .pure hresult
  exact .here (within _ _ a ha)

theorem itemsUntil {listEnd : Parser Bool} (hend : Closing listEnd) (h : Closes m p)
    (hmono : ∀ before after a, before.entries <+: after.entries → p before a → p after a) :
    ClosesFrom context (Grammar.itemsUntil listEnd m) fun after items =>
      ∀ a ∈ items, p after a := by
  refine repeatRound (i := fun context items => ∀ a ∈ items, p context a)
    (fun context items hitems => ?_) nofun
  refine (hend.starting context).bind fun atEnd after hle _ => .ite (fun _ => .pure ?_) fun _ => ?_
  · exact fun a ha => hmono context after a hle (hitems a (List.mem_reverse.mp ha))
  · refine (h.starting after).bind fun a last hle' ha => .pure (List.forall_mem_cons.mpr ⟨ha,?_⟩)
    exact fun b hb => hmono context last b (hle.trans hle') (hitems b hb)

end ClosesFrom

namespace Closes

theorem pure (a : α) : Closing (Pure.pure a : Parser α) := ⟨fun _ => .pure trivial⟩

theorem throw (fault : Fault) : Closes (MonadExcept.throw fault : Parser α) p :=
  ⟨fun _ => .throw fault⟩

theorem fail (error : DemangleError) : Closes (Grammar.fail error : Parser α) p :=
  ⟨fun _ => .fail error⟩

theorem unexpected (production : String) : Closes (Grammar.unexpected production : Parser α) p :=
  ⟨fun _ => .unexpected production⟩

theorem forget (h : Closes m p) : Closing m :=
  ⟨fun context => (h.starting context).imp fun _ _ _ => trivial⟩

theorem bind (h : Closes m p) (hq : ∀ a, Closes (q a) g) : Closes (m >>= q) g :=
  ⟨fun context => (h.starting context).bind fun a after _ _ => (hq a).starting after⟩

theorem andThen {v : α → Prop} (h : Closes m fun _ a => v a) (hq : ∀ a, v a → Closes (q a) g) :
    Closes (m >>= q) g :=
  ⟨fun context => (h.starting context).bind fun a after _ ha => (hq a ha).starting after⟩

theorem failing (h : Closes m fun _ _ => False) : Closes (m >>= q) g := h.andThen nofun

theorem map {f : α → β} (h : Closes m p) : Closing (f <$> m) :=
  ⟨fun context => (h.starting context).map fun _ _ _ _ => trivial⟩

theorem ite {c : Prop} [Decidable c] (h : c → Closes m p) (h' : ¬c → Closes m' p) :
    Closes (if c then m else m') p := by
  split
  · exact h ‹_›
  · exact h' ‹_›

theorem guard {c : Prop} [Decidable c] {check : Parser PUnit} {next : PUnit → Parser α}
    (hcheck : Closing check) (hnext : Closes (next ⟨⟩) p) :
    Closes (if c then check >>= next else next ⟨⟩) p :=
  ite (fun _ => hcheck.bind fun _ => hnext) fun _ => hnext

theorem guardNot {c : Prop} [Decidable c] {check : Parser PUnit} {next : PUnit → Parser α}
    (hcheck : Closing check) (hnext : Closes (next ⟨⟩) p) :
    Closes (if c then next ⟨⟩ else check >>= next) p :=
  ite (fun _ => hnext) fun _ => hcheck.bind fun _ => hnext

theorem reading {reader : Scan α} : Closing (liftM reader) :=
  ⟨fun _ => .reading fun _ _ _ => trivial⟩

theorem scan {reader : Scan α} (hq : ∀ a, Closes (q a) g) : Closes (liftM reader >>= q) g :=
  ⟨fun _ => .scan fun a _ _ => (hq a).starting _⟩

theorem here {q : Cursor → Parser β} (hq : ∀ cursor, Closes (q cursor) g) :
    Closes (Grammar.here >>= q) g := ⟨fun _ => .here ((hq _).starting _)⟩

theorem get {q : Context → Parser β} (hq : ∀ context, Closes (q context) g) :
    Closes (MonadState.get >>= q) g := ⟨fun _ => .get ((hq _).starting _)⟩

theorem value {a : α} {v : α → Prop} (h : v a) : Closes (Pure.pure a : Parser α) fun _ a => v a :=
  ⟨fun _ => .pure h⟩

theorem build {node : Node} {v : Node → Prop} (h : v node) :
    Closes (Grammar.build node) fun _ node => v node :=
  ⟨fun _ => .build h⟩

theorem remembered {component : Parser Node} (h : Closes component fun _ node => node.Rooted []) :
    Closes (Grammar.remembered component) fun after node => node.Known after.entries :=
  ⟨fun context =>
    .remembered ((h.starting context).imp fun _ _ hnode => hnode.mono List.nil_prefix)⟩

theorem nested (h : Closes m p)
    (hp : ∀ before after a, before.entries = after.entries → p before a → p after a) :
    Closes (Grammar.nested m) p := by
  refine ⟨fun context => ⟨fun hc => ?_⟩⟩
  have hm := (h.starting { context with depth := context.depth + 1 }).ends hc
  unfold Grammar.nested
  cases hresult : m { context with depth := context.depth + 1 } with
  | ok a after =>
    rw [hresult] at hm
    exact ⟨hm.1,hm.2.1,hp after { after with depth := context.depth } a rfl hm.2.2⟩
  | error fault after =>
    rw [hresult] at hm
    exact hm

theorem allowingTemplateArgs (allowed : Bool) (h : Closes m p) :
    Closing (Grammar.allowingTemplateArgs allowed m) := by
  refine ⟨fun context => ⟨fun hc => ?_⟩⟩
  have hm := (h.starting { context with templateArgsAllowed := allowed }).ends hc
  unfold Grammar.allowingTemplateArgs
  cases hresult : m { context with templateArgsAllowed := allowed } with
  | ok a after =>
    rw [hresult] at hm
    exact ⟨hm.1,hm.2.1,trivial⟩
  | error fault after =>
    rw [hresult] at hm
    exact hm

theorem itemsUntil {listEnd : Parser Bool} (hend : Closing listEnd) (h : Closes m p) :
    Closing (Grammar.itemsUntil listEnd m) :=
  ⟨fun _ => (ClosesFrom.itemsUntil hend h.forget fun _ _ _ _ h => h).imp fun _ _ _ => trivial⟩

theorem itemsToE (h : Closes m p) : Closing (Grammar.itemsToE m) := itemsUntil reading h

end Closes

end

end Grammar

end MangledNames
