import MangledNames.Proofs.Grammar.Rooting
import MangledNames.Grammar.Type
set_option autoImplicit false

/-!
Back references, template arguments and types keep the table closed, if the productions below them
do: a type that was read is builtin, abbreviated or an entry.
-/

namespace MangledNames.Grammar

open Cursor Node

structure Rules.Root (r : Rules) : Prop where
  encoding : Closing r.encoding
  specialName : Closing r.specialName
  name : Closes r.name fun context named => named.node.Rooted context.entries
  nestedName : Closes r.nestedName fun context named => named.node.Rooted context.entries
  localName : Closes r.localName fun context named => named.node.Rooted context.entries
  unqualifiedName : Closes r.unqualifiedName fun _ named => named.node.Rooted []
  templateArgs : Closing r.templateArgs
  templateArg : Closing r.templateArg
  type : Closes r.type fun context type => type.Known context.entries
  expression : Closing r.expression
  exprPrimary : Closing r.exprPrimary
  unresolvedName : ∀ globalScope, Closing (r.unresolvedName globalScope)

theorem properName_closes : Closing properName := by
  unfold properName
  exact .scan fun _ => (Closes.build (v := fun _ => True) trivial).bind fun _ => .pure _

theorem sourceName_closes : Closes sourceName fun _ node => node.Rooted [] :=
  ⟨fun context => (properName_closes.starting context).map fun _ _ _ _ => .simple nofun rfl rfl⟩

theorem tableEntry_closes (index offset : Nat) :
    Closes (do
      match (← get).substitutions.resolve index offset with
      | .ok node => return node
      | .error error => fail error : Parser Node)
      fun context node => node.IsAbbreviation ∨ node ∈ context.entries := by
  refine ⟨fun context => .get ?_⟩
  unfold Substitutions.resolve
  split
  · rename_i node hnode
    split at hnode
    · cases hnode
    · split at hnode
      · rename_i found hfound
        cases hnode
        exact .pure (.inr (by simpa [Substitutions.toList] using Array.mem_of_getElem? hfound))
      · cases hnode
  · exact .fail _

theorem substitution_closes :
    Closes substitution fun context node => node.IsAbbreviation ∨ node ∈ context.entries := by
  unfold substitution
  refine .here fun start => .scan fun _ => .scan fun _ =>
      .ite (fun _ => .scan fun letter => ?_) fun _ =>
    .scan fun _ => .ite (fun _ => ?_) fun _ => .scan fun _ => .scan fun _ => ?_
  · split
    · exact ⟨fun _ => .pure (.inl ⟨_,_,rfl⟩)⟩
    · exact .fail _
  · exact (Closes.pure _).bind fun index => tableEntry_closes index start.position
  · exact (Closes.pure _).bind fun index => tableEntry_closes index start.position

theorem templateParam_closes : Closes templateParam fun _ node => node.Rooted [] := by
  have param : ∀ index, Closes (pure (.templateParam index) : Parser Node) fun _ node =>
      node.Rooted [] :=
    fun _ => .value (.simple nofun rfl rfl)
  unfold templateParam
  exact .here fun start => .scan fun _ => .scan fun _ => .guard (.fail _) (.scan fun _ =>
    .guard (.fail _) (.scan fun _ => .ite (fun _ => param 0) fun _ => .scan fun _ =>
      .scan fun _ => param _))

section
variable {r : Rules} (hr : r.Root)
include hr

theorem templateArgs?_closes : Closing r.templateArgs? := by
  unfold Rules.templateArgs?
  exact .scan fun _ => .ite (fun _ => hr.templateArgs.map) fun _ => .pure _

theorem withTemplateArgs_closes (name : Node) : Closing (r.withTemplateArgs name) := by
  unfold Rules.withTemplateArgs
  refine (templateArgs?_closes hr).bind fun arguments => ?_
  cases arguments with
  | none => exact .pure _
  | some arguments => exact .pure _

theorem templateArgs_closes : Closing (templateArgs r) := by
  unfold templateArgs
  exact .scan fun _ => .allowingTemplateArgs true (.itemsToE hr.templateArg)

theorem templateArg_closes : Closing (templateArg r) := by
  unfold templateArg
  refine .scan fun next => ?_
  split
  · exact .scan fun _ => hr.expression.bind fun _ => .scan fun _ => .pure _
  · exact .scan fun _ => (Closes.itemsToE hr.templateArg).bind fun _ => .pure _
  · exact hr.templateArgs.bind fun _ => .pure _
  · exact hr.exprPrimary
  · exact hr.type.forget

theorem decltype_closes : Closes (decltype r) fun _ node => node.Rooted [] := by
  unfold decltype
  exact .scan fun _ => .guardNot (.unexpected _) (hr.expression.bind fun _ => .scan fun _ =>
    .value (.simple nofun rfl rfl))

theorem exceptionSpec_closes : Closes (exceptionSpec r) fun context spec =>
    ∀ types, spec = some (.throwing types) → ∀ type ∈ types, type.Known context.entries := by
  unfold exceptionSpec
  refine .scan fun _ => .ite (fun _ => ⟨fun _ => .pure nofun⟩) fun _ => .scan fun _ =>
    .ite (fun _ => hr.expression.bind fun _ => .scan fun _ => ⟨fun _ => .pure nofun⟩) fun _ =>
    .scan fun _ => .ite (fun _ => ⟨fun context => ?_⟩) fun _ => ⟨fun _ => .pure nofun⟩
  refine (ClosesFrom.itemsUntil .reading hr.type fun _ _ _ hle h => h.mono hle).bind
      fun types after _ h =>
    .pure ?_
  rintro _ ⟨⟩
  exact h

theorem functionTypeParameters_closes : Closes (functionTypeParameters r) fun context found =>
    ∀ type ∈ found.1, type.Known context.entries := by
  refine ⟨fun context =>
    .repeatRound (i := fun context types => ∀ type ∈ types, type.Known context.entries)
    (fun context types htypes => .scan fun found _ _ => ?_) nofun⟩
  split
  · exact .pure fun type htype => htypes type (List.mem_reverse.mp htype)
  · refine .scan fun _ _ _ => .ite (fun _ => .pure htypes) fun _ => (hr.type.starting _).bind
      fun type after hle htype => .pure (List.forall_mem_cons.mpr ⟨htype,?_⟩)
    exact fun other hother => (htypes other hother).mono hle

theorem functionType_closes :
    Closes (functionType r) fun context node => node.Rooted context.entries := by
  unfold functionType
  refine ⟨fun context => ((exceptionSpec_closes hr).starting context).bind fun spec c _ hspec =>
    .scan fun _ _ _ => .scan fun _ _ _ => .scan fun _ _ _ => (hr.type.starting _).bind
    fun returnType c' hle hreturn => ((functionTypeParameters_closes hr).starting c').bind
    fun found after hle' hfound => .pure (.type nofun ?_ rfl)⟩
  intro type htype
  rcases mem_components_functionType htype with rfl | hparameter | ⟨types,hthrows,hthrown⟩
  · exact hreturn.mono hle'
  · exact hfound type hparameter
  · exact ((hspec types hthrows type hthrown).mono hle).mono hle'

theorem typeWrapped_closes (wrap : Node → Node)
    (hwrap : ∀ inner earlier, inner.Known earlier → (wrap inner).Rooted earlier) :
    Closes (do return wrap (← r.type) : Parser Node) fun context node =>
      node.Rooted context.entries :=
  ⟨fun context => (hr.type.starting context).bind fun inner after _ hinner =>
    .pure (hwrap inner after.entries hinner)⟩

theorem arrayType_closes :
    Closes (arrayType r) fun context node => node.Rooted context.entries := by
  have element :
    ∀ bound : Option (Dimension Node), Closes (do return .arrayType (← r.type) bound : Parser Node)
      fun context node => node.Rooted context.entries :=
    fun bound => typeWrapped_closes hr (.arrayType · bound) fun _ _ h =>
      .type nofun (by simpa [components]) rfl
  unfold arrayType
  exact .scan fun _ => .scan fun _ => .scan fun _ =>
    .ite (fun _ => (Closes.pure _).bind element) fun _ =>
    .ite (fun _ => .scan fun _ => .scan fun _ => (Closes.pure _).bind element) fun _ =>
    hr.expression.bind fun _ => .scan fun _ => (Closes.pure _).bind element

theorem vectorType_closes :
    Closes (vectorType r) fun context node => node.Rooted context.entries := by
  have element : ∀ bound : Dimension Node, Closes (do
      expect "_" "vector dimension"
      return .vectorType (← r.type) bound : Parser Node) fun context node =>
        node.Rooted context.entries :=
    fun bound => .scan fun _ => typeWrapped_closes hr (.vectorType · bound) fun _ _ h =>
      .type nofun (by simpa [components]) rfl
  unfold vectorType
  exact .scan fun _ => .scan fun _ => .ite (fun _ => hr.expression.map.bind element) fun _ =>
    Closes.reading.map.bind element

omit hr in
/-- Qualifiers of a function type leave its components as they are. -/
theorem qualify_closes {context : Context} (cv : CvQualifiers) {inner : Node}
    (h : inner.Known context.entries) :
    ClosesFrom context (qualify cv inner) fun after node => node.Rooted after.entries := by
  refine .closed fun hclosed => ?_
  unfold qualify
  split
  · rename_i f
    have hrooted : (Node.functionType f).Rooted context.entries := by
      refine hclosed.rooted_of_known (.inr (h.resolve_left nofun))
    exact .pure (.type nofun hrooted.components rfl)
  · exact .build (.type nofun (by simpa [components]) rfl)

omit hr in
theorem builtinAfterD_closes :
    Closes builtinAfterD fun context type => type.Known context.entries := by
  unfold builtinAfterD
  refine .here fun start => ?_
  split
  · split
    · exact .scan fun _ => ⟨fun _ => .pure (.inl ⟨_,rfl⟩)⟩
    · exact .fail _
  · exact .fail _

theorem typeAfterD_closes :
    Closes (typeAfterD r) fun context type => type.Known context.entries := by
  have function : Closes (remembered (functionType r)) fun context type =>
      type.Known context.entries :=
    ⟨fun context => .remembered ((functionType_closes hr).starting context)⟩
  unfold typeAfterD
  refine .scan fun next => ?_
  split
  · exact ⟨fun context => .remembered ((Closes.scan fun _ => typeWrapped_closes hr .packExpansion
      fun _ _ h => .type nofun (by simpa [components]) rfl).starting context)⟩
  · exact .remembered (decltype_closes hr)
  · exact .remembered (decltype_closes hr)
  · exact ⟨fun context => .remembered ((vectorType_closes hr).starting context)⟩
  · exact function
  · exact function
  · exact function
  · exact function
  · exact .scan fun _ => .scan fun _ => .scan fun _ => ⟨fun _ => .pure (.inl ⟨_,rfl⟩)⟩
  · exact builtinAfterD_closes

theorem typeAfterT_closes :
    Closes (typeAfterT r) fun context type => type.Known context.entries := by
  unfold typeAfterT
  refine .scan fun next => ?_
  split
  · exact .remembered (.scan fun _ => hr.name.bind fun _ => .value (.simple nofun rfl rfl))
  · refine ⟨fun context => .remembered ((templateParam_closes.starting context).bind
      fun param after _ hparam => .get (.scan fun _ _ _ => .ite (fun _ => ?_) fun _ => ?_))⟩
    · refine .remember (hparam.mono List.nil_prefix) fun remembered _ hmem =>
        (hr.templateArgs.starting remembered).bind fun arguments last hle _ => .pure ?_
      exact .templateName (.inr (.inr (hle.subset hmem))) arguments
    · exact .pure (hparam.mono List.nil_prefix)

theorem namedType_closes :
    Closes (remembered (Named.node <$> r.name)) fun context type => type.Known context.entries :=
  ⟨fun context => .remembered ((hr.name.starting context).map fun _ _ _ h => h)⟩

theorem typeAfterS_closes :
    Closes (typeAfterS r) fun context type => type.Known context.entries := by
  unfold typeAfterS
  refine .scan fun _ => .ite (fun _ => namedType_closes hr) fun _ => ⟨fun context =>
    (substitution_closes.starting context).bind fun name after _ hname => .get (.scan fun _ _ _ =>
    .ite (fun _ => .remembered ?_) fun _ => .pure (.inr hname))⟩
  exact (hr.templateArgs.starting _).map fun arguments last hle _ =>
    (Rooted.templateName (.inr hname) arguments).mono hle

theorem type_closes : Closes (type r) fun context type => type.Known context.entries := by
  have wrapped : ∀ (letter production : String) (wrap : Node → Node),
      (∀ inner earlier, inner.Known earlier → (wrap inner).Rooted earlier) → Closes (remembered do
        expect letter production
        return wrap (← r.type)) fun context type => type.Known context.entries :=
    fun letter production wrap hwrap => ⟨fun context =>
      .remembered ((Closes.scan fun _ => typeWrapped_closes hr wrap hwrap).starting context)⟩
  have qualified : Closes (remembered do
      let cv ← cvQualifiers
      qualify cv (← r.type)) fun context type => type.Known context.entries :=
    ⟨fun context => .remembered (.scan fun cv _ _ => (hr.type.starting _).bind fun _ _ _ h =>
      qualify_closes cv h)⟩
  unfold type
  refine .scan fun next => ?_
  split
  · exact .unexpected _
  · exact qualified
  · exact qualified
  · exact qualified
  · exact ⟨fun context => .remembered ((Closes.scan fun _ => .scan fun qualifier =>
      (templateArgs?_closes hr).bind fun arguments =>
        typeWrapped_closes hr (.vendorQualifiedType · qualifier arguments)
          fun _ _ h => .type nofun (by simpa [components]) rfl).starting context)⟩
  · exact wrapped "P" _ .pointerType fun _ _ h => .type nofun (by simpa [components]) rfl
  · exact wrapped "R" _ (.referenceType · .lvalue) fun _ _ h =>
      .type nofun (by simpa [components]) rfl
  · exact wrapped "O" _ (.referenceType · .rvalue) fun _ _ h =>
      .type nofun (by simpa [components]) rfl
  · exact wrapped "C" _ .complexType fun _ _ h => .type nofun (by simpa [components]) rfl
  · exact wrapped "G" _ .imaginaryType fun _ _ h => .type nofun (by simpa [components]) rfl
  · exact ⟨fun context => .remembered ((functionType_closes hr).starting context)⟩
  · exact ⟨fun context => .remembered ((arrayType_closes hr).starting context)⟩
  · refine ⟨fun context => .remembered (.scan fun _ _ _ => (hr.type.starting _).bind
      fun classType after _ hclass =>
      (hr.type.starting after).bind fun memberType last hle hmember =>
      .pure (.type nofun ?_ rfl))⟩
    simpa [components] using ⟨hclass.mono hle,hmember⟩
  · exact typeAfterT_closes hr
  · exact typeAfterD_closes hr
  · exact .remembered (.scan fun _ => .scan fun _ => (templateArgs?_closes hr).bind fun _ =>
      .value (.simple nofun rfl rfl))
  · exact typeAfterS_closes hr
  · exact namedType_closes hr
  · exact namedType_closes hr
  · refine .ite (fun _ => namedType_closes hr) fun _ => ?_
    split
    · exact .scan fun _ => ⟨fun _ => .pure (.inl ⟨_,rfl⟩)⟩
    · exact .unexpected _

end

end MangledNames.Grammar
