import MangledNames.Proofs.Grammar.Collecting
set_option autoImplicit false

/-!
Template arguments and types collect nodes whose digits and marks have no brackets, if
the productions below them do.
-/

namespace MangledNames.Grammar

open Cursor Node Printing

structure Rules.Collect (r : Rules) : Prop where
  encoding : Collects r.encoding Node.Plain
  specialName : Collects r.specialName Node.Plain
  name : Collects r.name fun named => named.node.Plain
  nestedName : Collects r.nestedName fun named => named.node.Plain
  localName : Collects r.localName fun named => named.node.Plain
  unqualifiedName : Collects r.unqualifiedName fun named => named.node.Plain
  templateArgs : Collects r.templateArgs fun nodes => ∀ node ∈ nodes, node.Plain
  templateArg : Collects r.templateArg Node.Plain
  type : Collects r.type Node.Plain
  expression : Collects r.expression Node.Plain
  exprPrimary : Collects r.exprPrimary Node.Plain
  unresolvedName : ∀ globalScope, Collects (r.unresolvedName globalScope) Node.Plain

section
variable {r : Rules} (hr : r.Collect)
include hr

theorem templateArgs?_collects :
    Collects r.templateArgs? fun arguments => ∀ node ∈ arguments.getD [], node.Plain := by
  unfold Rules.templateArgs?
  exact .scan fun _ => .ite (fun _ => hr.templateArgs.map fun _ h => h) fun _ => .pure nofun

theorem withTemplateArgs_collects {name : Node} (h : name.Plain) :
    Collects (r.withTemplateArgs name) Node.Plain := by
  unfold Rules.withTemplateArgs
  refine (templateArgs?_collects hr).bind fun arguments harguments => ?_
  cases arguments with
  | none => exact .pure h
  | some arguments => exact .pure (h.templateName harguments)

theorem templateArgs_collects :
    Collects (templateArgs r) fun nodes => ∀ node ∈ nodes, node.Plain := by
  unfold templateArgs
  exact .scan fun _ => .allowingTemplateArgs true (.itemsToE hr.templateArg)

theorem templateArg_collects : Collects (templateArg r) Node.Plain := by
  have pack : ∀ nodes : List Node, (∀ node ∈ nodes, node.Plain) →
      Collects (pure (.templateArgPack nodes)) Node.Plain :=
    fun nodes h => .pure (.of_children trivial (by simpa [children,fields] using h))
  unfold templateArg
  refine .scan fun c => ?_
  split
  · exact .scan fun _ => hr.expression.bind fun _ h => .scan fun _ => .pure h
  · exact .scan fun _ => (Collects.itemsToE hr.templateArg).bind pack
  · exact hr.templateArgs.bind pack
  · exact hr.exprPrimary
  · exact hr.type

theorem decltype_collects : Collects (decltype r) Node.Plain := by
  unfold decltype
  exact .scan fun _ => .guardNot (.unexpected _) (hr.expression.bind fun _ h => .scan fun _ =>
    .pure (.single trivial rfl h))

theorem exceptionSpec_collects : Collects (exceptionSpec r) fun spec =>
    ∀ node ∈ (spec.map Node.exceptionSpec).toList, node.Plain := by
  unfold exceptionSpec
  refine .scan fun _ => .ite (fun _ => .pure ?_) fun _ => .scan fun _ => .ite (fun _ => ?_) fun _ =>
    .scan fun _ => .ite (fun _ => ?_) fun _ => .pure nofun
  · exact List.forall_mem_singleton.mpr (.of_children trivial nofun)
  · exact hr.expression.bind fun _ h => .scan fun _ =>
      .pure (List.forall_mem_singleton.mpr (.single trivial rfl h))
  · refine (Collects.itemsToE hr.type).bind fun _ h => .pure (List.forall_mem_singleton.mpr ?_)
    exact .of_children trivial (by simpa [children,fields] using h)

theorem functionTypeParameters_collects :
    Collects (functionTypeParameters r) fun found => ∀ node ∈ found.1, node.Plain := by
  refine .repeatRound (i := fun nodes => ∀ node ∈ nodes, node.Plain) nofun fun nodes hnodes =>
    .scan fun found => ?_
  split
  · exact .pure (by simpa [Round.Keeps] using hnodes)
  · exact .scan fun _ => .ite (fun _ => .pure hnodes) fun _ => hr.type.bind fun _ h =>
      .pure (List.forall_mem_cons.mpr ⟨h,hnodes⟩)

theorem functionType_collects : Collects (functionType r) Node.Plain := by
  unfold functionType
  refine (exceptionSpec_collects hr).bind fun spec hspec => .scan fun _ => .scan fun _ =>
    .scan fun _ => ?_
  refine hr.type.bind fun returnType hreturn => (functionTypeParameters_collects hr).bind
    fun found hfound => .pure (.of_children trivial ?_)
  simpa [children,fields,or_imp,forall_and] using
    ⟨hreturn,hfound,fun _ h => hspec _ (by simp [h])⟩

theorem arrayType_collects : Collects (arrayType r) Node.Plain := by
  have element : ∀ bound : Option (Dimension Node),
      (∀ node ∈ (bound.map Dimension.nodes).getD [], node.Plain) →
      Collects (do return .arrayType (← r.type) bound : Parser Node) Node.Plain := by
    refine fun bound hbound => hr.type.bind fun _ h => .pure (.of_children trivial ?_)
    cases bound with
    | none => simpa [children,fields] using h
    | some bound => simpa [children,fields] using ⟨h,hbound⟩
  unfold arrayType
  refine .scan fun _ => .scan fun _ => .scan fun _ =>
    .ite (fun _ => ?_) fun _ => .ite (fun _ => ?_) fun _ => ?_
  · exact (Collects.pure (p := (· = none)) rfl).bind fun _ h => element _ (by simp [h])
  · refine .scan fun size => .scan fun _ =>
      (Collects.pure (p := (· = some (.size size))) rfl).bind fun _ h => ?_
    exact element _ (by simp [h,Dimension.nodes])
  · refine hr.expression.bind fun e he => .scan fun _ =>
      (Collects.pure (p := (· = some (.expression e))) rfl).bind fun _ h => element _ ?_
    subst h
    simpa [Dimension.nodes] using he

theorem vectorType_collects : Collects (vectorType r) Node.Plain := by
  have element : ∀ bound : Dimension Node, (∀ node ∈ bound.nodes, node.Plain) → Collects (do
      expect "_" "vector dimension"
      return .vectorType (← r.type) bound : Parser Node) Node.Plain :=
    fun bound hbound => .scan fun _ => hr.type.bind fun _ h =>
      .pure (.of_children trivial (by simpa [children,fields] using ⟨h,hbound⟩))
  unfold vectorType
  refine .scan fun _ => .scan fun _ => .ite (fun _ => ?_) fun _ => ?_
  · exact (hr.expression.map (f := Dimension.expression)
      (g := fun bound => ∀ node ∈ bound.nodes, node.Plain)
      fun _ h => by simpa [Dimension.nodes] using h).bind element
  · refine ((Collects.ofScan (p := fun _ => True) fun _ _ _ _ => trivial).map (f := Dimension.size)
      (g := fun bound => ∀ node ∈ bound.nodes, node.Plain) fun _ _ =>
        List.forall_mem_nil _).bind element

omit hr in
theorem qualify_collects (cv : CvQualifiers) {inner : Node} (h : inner.Plain) :
    Collects (qualify cv inner) Node.Plain := by
  unfold qualify
  split
  · exact .pure
      (.of_children trivial fun child hchild => h.child (by simpa [children,fields] using hchild))
  · exact .build (.single trivial rfl h)

omit hr in
/-- The letters of builtin types stand for no digits. -/
theorem plain_ofLetter {c : Char} {type : BuiltinType} (h : BuiltinType.ofLetter? c = some type) :
    (Node.builtinType type).Plain := by
  unfold BuiltinType.ofLetter? at h
  split at h <;> cases h <;> exact .of_children trivial nofun

omit hr in
theorem plain_ofLetterAfterD {c : Char} {type : BuiltinType}
    (h : BuiltinType.ofLetterAfterD? c = some type) :
    (Node.builtinType type).Plain := by
  unfold BuiltinType.ofLetterAfterD? at h
  split at h <;> cases h <;> exact .of_children trivial nofun

omit hr in
theorem builtinAfterD_collects : Collects builtinAfterD Node.Plain := by
  unfold builtinAfterD
  refine .here fun start => ?_
  split
  · split
    · rename_i htype
      exact .scan fun _ => .pure (plain_ofLetterAfterD htype)
    · exact .fail _
  · exact .fail _

theorem typeAfterD_collects : Collects (typeAfterD r) Node.Plain := by
  unfold typeAfterD
  refine .scan fun c => ?_
  split
  · exact .remembered (.scan fun _ => hr.type.bind fun _ h => .pure (.single trivial rfl h))
  · exact .remembered (decltype_collects hr)
  · exact .remembered (decltype_collects hr)
  · exact .remembered (vectorType_collects hr)
  · exact .remembered (functionType_collects hr)
  · exact .remembered (functionType_collects hr)
  · exact .remembered (functionType_collects hr)
  · exact .remembered (functionType_collects hr)
  · refine .scan fun _ => (digits_collects _).bind fun bits hbits => .scan fun _ =>
      .pure (.of_children ?_ nofun)
    simpa [AsRead] using hbits
  · exact builtinAfterD_collects

theorem typeAfterT_collects : Collects (typeAfterT r) Node.Plain := by
  unfold typeAfterT
  refine .scan fun c => ?_
  split
  · exact .remembered (.scan fun _ => hr.name.bind fun _ h => .pure (.single trivial rfl h))
  · refine .remembered (templateParam_collects.bind fun param hparam => .get fun _ _ =>
        .scan fun _ =>
      .ite (fun _ => .remember hparam ?_) fun _ => .pure hparam)
    exact hr.templateArgs.bind fun _ h => .pure (hparam.templateName h)

theorem typeAfterS_collects : Collects (typeAfterS r) Node.Plain := by
  unfold typeAfterS
  refine .scan fun c => .ite (fun _ => .remembered (hr.name.map fun _ h => h)) fun _ => ?_
  refine substitution_collects.bind fun name hname => .get fun _ _ => .scan fun _ =>
    .ite (fun _ => .remembered ?_) fun _ => .pure hname
  exact hr.templateArgs.map fun _ h => hname.templateName h

theorem type_collects : Collects (type r) Node.Plain := by
  have wrapped : ∀ (letter production : String) (wrap : Node → Node),
      (∀ node, node.Plain → (wrap node).Plain) → Collects (remembered do
        expect letter production
        return wrap (← r.type)) Node.Plain :=
    fun letter production wrap hwrap => .remembered (.scan fun _ => hr.type.bind fun node h =>
      .pure (hwrap node h))
  have named : Collects (remembered (Named.node <$> r.name)) Node.Plain :=
    .remembered (hr.name.map fun _ h => h)
  have qualified : Collects (remembered do
      let cv ← cvQualifiers
      qualify cv (← r.type)) Node.Plain :=
    .remembered (.scan fun cv => hr.type.bind fun _ h => qualify_collects cv h)
  unfold type
  refine .scan fun c => ?_
  split
  · exact .unexpected _
  · exact qualified
  · exact qualified
  · exact qualified
  · refine .remembered (.scan fun _ => .scan fun _ => (templateArgs?_collects hr).bind
      fun arguments harguments => hr.type.bind fun _ h => .pure (.of_children trivial ?_))
    simpa [children,fields] using ⟨h,Plain.arguments harguments⟩
  · exact wrapped "P" _ .pointerType fun _ h => .single trivial rfl h
  · exact wrapped "R" _ (.referenceType · .lvalue) fun _ h => .single trivial rfl h
  · exact wrapped "O" _ (.referenceType · .rvalue) fun _ h => .single trivial rfl h
  · exact wrapped "C" _ .complexType fun _ h => .single trivial rfl h
  · exact wrapped "G" _ .imaginaryType fun _ h => .single trivial rfl h
  · exact .remembered (functionType_collects hr)
  · exact .remembered (arrayType_collects hr)
  · exact .remembered (.scan fun _ => hr.type.bind fun _ hclass => hr.type.bind fun _ hmember =>
      .pure (.pair trivial rfl hclass hmember))
  · exact typeAfterT_collects hr
  · exact typeAfterD_collects hr
  · refine .remembered (.scan fun _ => .scan fun _ => (templateArgs?_collects hr).bind
      fun arguments harguments => .pure (.of_children trivial ?_))
    simpa [children,fields] using Plain.arguments harguments
  · exact typeAfterS_collects hr
  · exact named
  · exact named
  · split
    · exact named
    · split
      · rename_i htype
        exact .scan fun _ => .pure (plain_ofLetter htype)
      · exact .unexpected _

end

end MangledNames.Grammar
