import MangledNames.Proofs.Printing.AngleTexts
set_option autoImplicit false

/-!
What the halves of nodes write, with all closing angle brackets apart.
-/

namespace MangledNames.Printing

open Node

def AngledNames (node : Node) : Prop := ∀ name ∈ node.spelledNames, AnglesApart name.toList

/-- No type that is framed ends with `>`. -/
def FramesApart (config : Config) (spot : Place × Node) : Prop :=
  ∀ type, spot.2.framedType? = some type → ∀ n s t, s.Sound →
    (Halves.levels config n).print spot.1 type s = .ok () t → t.output.last ≠ some '>'

structure AngledAt (config : Config) (spot : Place × Node) : Prop where
  names : AngledNames spot.2
  asRead : AsRead spot.2
  framed : FramesApart config spot

abbrev Angled (config : Config) : Place × Node → Prop := Everywhere config (AngledAt config)

theorem angled_sourceName {config : Config} {place : Place} {name : String}
    (h : AnglesApart name.toList) :
    Angled config (place,.sourceName name) :=
  Everywhere.sourceName ⟨by simpa [AngledNames,spelledNames] using h,trivial,nofun⟩

/-- With so many levels left, the halves of nodes have their angles apart. -/
def Halves.SpaceAngles {config : Config} (hspaced : config.closingAngleSpace = true)
    (n : Nat) : Prop :=
  ∀ {place : Place} {node : Node}, Angled config (place,node) →
    (anglesApart hspaced).Writes ((Halves.levels config n).left place node) ∧
      (anglesApart hspaced).Writes ((Halves.levels config n).right place node)

section
variable {config : Config} {hspaced : config.closingAngleSpace = true} {place : Place}

theorem literal_angles {text : String} (h : '>' ∉ text.toList) :
    (anglesApart hspaced).Writes (write text) :=
  TextInvariant.write (.of_no_angle h)

theorem literalIf_angles {c : Prop} [Decidable c] {text : String} {k : Unit → Printer Unit}
    (htext : '>' ∉ text.toList) (hk : (anglesApart hspaced).Writes (k ())) :
    (anglesApart hspaced).Writes (if c then write text >>= k else k ()) :=
  TextInvariant.ite (fun _ => TextInvariant.bind (literal_angles htext) fun _ => hk) fun _ => hk

theorem collapse_angles {referent : Node} {kind : ReferenceKind}
    (h : Angled config (place,.referenceType referent kind)) {q : Collapsed → Printer Unit}
    (hq : ∀ c, Angled config ({ place with scopes := c.scopes },c.referent) →
      (anglesApart hspaced).Writes (q c)) :
    (anglesApart hspaced).Writes (collapse config place referent kind >>= q) := by
  refine .asked (collapse_grows place referent kind) (fun _ _ _ => collapse_ok) fun c hc => ?_
  obtain ⟨_,hway,_⟩ := hc.way
  exact hq c (h.visits (.referent hway))

theorem templateParam_angles {index : Nat} (h : Angled config (place,.templateParam index))
    {half : Place → Node → Printer Unit} {auto : Nat → Printer Unit}
    (hauto : (anglesApart hspaced).Writes (auto index))
    (hhalf : ∀ {place' : Place} {node : Node}, Angled config (place',node) →
      (anglesApart hspaced).Writes (half place' node)) :
    (anglesApart hspaced).Writes (templateParam half auto place index) := by
  unfold templateParam
  refine TextInvariant.ite (fun _ => hauto) fun _ => .ofExcept fun found hfound => ?_
  exact hhalf (h.visits (.argument hfound))

/-- A framed type does not end with `>` where its own text does not. -/
theorem framed_closable {n : Nat} {node type : Node} (h : Angled config (place,node))
    (htype : node.framedType? = some type)
    (hprint : (anglesApart hspaced).Writes ((Halves.levels config n).print place type)) :
    Says ((Halves.levels config n).print place type) (anglesApart hspaced).Closable := by
  intro s hs _ t ht
  obtain ⟨hleads,added,hadded,hapart⟩ := hprint s hs () t ht
  refine ⟨hleads,added,hadded,hapart,fun hangle => ?_⟩
  have hne : added.toList ≠ [] := by
    intro hnone
    rw [hnone] at hangle
    cases hangle
  have hlast := h.self.framed type htype n s t hs ht
  rw [(hleads.sound hs).last_text,hadded,String.toList_append,List.getLast?_append_of_ne_nil
    _ hne] at hlast
  exact hlast hangle

end

section
variable {config : Config} {hspaced : config.closingAngleSpace = true} {n : Nat}
  (hh : Halves.SpaceAngles hspaced n) {place : Place}
include hh

theorem print_angles {node : Node} (h : Angled config (place,node)) :
    (anglesApart hspaced).Writes ((Halves.levels config n).print place node) :=
  TextInvariant.bind (hh h).1 fun _ => (hh h).2

theorem angled_pieces {node : Node} (h : Angled config (place,node)) :
    TextInvariant.Pieces (anglesApart hspaced) (Halves.levels config n) place node where
  visits hvisits := by
    obtain ⟨hleft,hright⟩ := hh (h.visits hvisits)
    exact fun hm => TextInvariant.andThen hleft (TextInvariant.andThen hm hright)
  names name hname :=
    ⟨h.self.names name hname,print_angles hh (angled_sourceName (h.self.names name hname))⟩
  asRead := h.self.asRead
  framed _ htype := framed_closable h htype (print_angles hh (h.printed (framedType_printed htype)))
  expands _ _ _ hfits := by
    have hcomma : AnglesApart ", ".toList := .of_no_angle (by decide)
    exact TextInvariant.spread_fits hcomma hfits

theorem functionType_angles {f : FunctionType Node} (h : Angled config (place,.functionType f)) :
    (anglesApart hspaced).Writes
        (leftHalf config (Halves.levels config n) place (.functionType f)) ∧
      (anglesApart hspaced).Writes
        (rightHalf config (Halves.levels config n) place (.functionType f)) := by
  obtain ⟨hleft,hright⟩ := hh (h.printed (.head _))
  have listed :
      (anglesApart hspaced).Writes (parameterList (Halves.levels config n) place f.parameters) :=
    TextInvariant.parameterList fun node hnode =>
      print_angles hh (h.printed (.tail _ (List.mem_append_left _ hnode)))
  have specified : (anglesApart hspaced).Writes
      (exceptionSpec (Halves.levels config n) place f.exceptionSpec) :=
    TextInvariant.exceptionSpec fun node hnode =>
      print_angles hh (h.printed (.tail _ (List.mem_append_right _ hnode)))
  have ending : (anglesApart hspaced).Writes
      (if f.transactionSafe then write " transaction_safe" else pure ()) :=
    TextInvariant.ite (fun _ => TextInvariant.plain (by decide)) fun _ => TextInvariant.pure _
  have hparts : rightHalf config (Halves.levels config n) place (.functionType f) = _ :=
    functionTypeRight_parts _ _ _
  constructor
  · refine TextInvariant.bind hleft fun _ => TextInvariant.asking (hasRightSide_grows place _)
      (hasRightSide_asks config place _) fun _ => ?_
    exact TextInvariant.ite (fun _ => TextInvariant.pure _) fun _ => TextInvariant.plain (by decide)
  · rw [hparts]
    exact TextInvariant.andThen listed (TextInvariant.andThen hright (TextInvariant.andThen
      (TextInvariant.memberQualifiers f.cv f.ref) (TextInvariant.andThen specified ending)))

theorem indirectionLeft_angles {target : Node} (h : Angled config (place,target)) {sign : String}
    (hsign : '>' ∉ sign.toList) :
    (anglesApart hspaced).Writes (indirectionLeft (Halves.levels config n) place target sign) :=
  TextInvariant.bind (hh h).1 fun _ => .ofExcept fun _ _ => literalIf_angles (by decide)
    (.ofExcept fun _ _ => literalIf_angles (by decide) (literal_angles hsign))

theorem indirectionRight_angles {target : Node} (h : Angled config (place,target)) :
    (anglesApart hspaced).Writes (indirectionRight (Halves.levels config n) place target) :=
  .ofExcept fun _ _ => literalIf_angles (by decide) (hh h).2

theorem bound_angles {element : Node} {bound : Option (Dimension Node)}
    (h : Angled config (place,.arrayType element bound)) :
    (anglesApart hspaced).Writes (do
      if let some bound := bound then dimension (Halves.levels config n) place bound
      write "]"
      (Halves.levels config n).right place element) := by
  have closed : (anglesApart hspaced).Writes (do
      write "]"
      (Halves.levels config n).right place element) :=
    TextInvariant.bind (literal_angles (by decide)) fun _ => (hh (h.printed (.head _))).2
  cases bound with
  | none => exact closed
  | some bound =>
    refine TextInvariant.bind (TextInvariant.dimension fun node hnode => ?_) fun _ => closed
    exact print_angles hh (h.printed (.tail _ hnode))

theorem arrayTypeRight_angles {element : Node} {bound : Option (Dimension Node)}
    (h : Angled config (place,.arrayType element bound)) :
    (anglesApart hspaced).Writes
      (rightHalf config (Halves.levels config n) place (.arrayType element bound)) := by
  have bounded : (anglesApart hspaced).Writes _ :=
    TextInvariant.bind (literal_angles (show '>' ∉ "[".toList by decide)) fun _ =>
      bound_angles hh h
  refine TextInvariant.asking last_grows last_asks fun _ => ?_
  exact TextInvariant.ite (fun _ => bounded) fun _ =>
    TextInvariant.bind (literal_angles (by decide)) fun _ => bounded

theorem pointerToMemberType_angles {classType memberType : Node}
    (h : Angled config (place,.pointerToMemberType classType memberType)) :
    (anglesApart hspaced).Writes (leftHalf config (Halves.levels config n) place
        (.pointerToMemberType classType memberType)) ∧
      (anglesApart hspaced).Writes (rightHalf config (Halves.levels config n) place
        (.pointerToMemberType classType memberType)) := by
  obtain ⟨hleft,hright⟩ := hh (h.printed (.tail _ (.head _)))
  have hclass := print_angles hh (h.printed (.head _))
  refine ⟨TextInvariant.bind hleft fun _ => .ofExcept fun needed _ => ?_,
    .ofExcept fun _ _ => literalIf_angles (by decide) hright⟩
  have hopening : '>' ∉ (if needed then "(" else " ").toList := by cases needed <;> decide
  exact TextInvariant.bind (literal_angles hopening) fun _ => TextInvariant.bind hclass fun _ =>
    TextInvariant.plain (by decide)

theorem halves_angles {node : Node} (h : Angled config (place,node)) :
    (anglesApart hspaced).Writes (leftHalf config (Halves.levels config n) place node) ∧
      (anglesApart hspaced).Writes (rightHalf config (Halves.levels config n) place node) := by
  have worded : ∀ {inner : Node} {text : String}, inner ∈ node.printed → '>' ∉ text.toList →
      (anglesApart hspaced).Writes (do
        (Halves.levels config n).left place inner
        write text) :=
    fun hpart htext => TextInvariant.bind (hh (h.printed hpart)).1 fun _ => literal_angles htext
  cases node with
  | qualifiedType inner cv =>
    obtain ⟨hleft,hright⟩ := hh (h.printed (.head _))
    exact ⟨TextInvariant.bind hleft fun _ => TextInvariant.cvQualifiers cv,hright⟩
  | vendorQualifiedType inner qualifier arguments =>
    obtain ⟨hleft,hright⟩ := hh (h.printed (.head _))
    have hqualifier : AnglesApart (" " ++ qualifier).toList :=
      (AnglesApart.of_no_angle (by decide)).text_append (h.self.names _ (.head _))
    refine ⟨TextInvariant.bind hleft fun _ =>
      TextInvariant.bind (TextInvariant.write hqualifier) fun _ => ?_,
      hright⟩
    exact TextInvariant.optionalTemplateArgs fun node hnode =>
      print_angles hh (h.printed (.tail _ hnode))
  | pointerType pointee =>
    exact ⟨indirectionLeft_angles hh (h.printed (.head _)) (by decide),
      indirectionRight_angles hh (h.printed (.head _))⟩
  | referenceType referent kind =>
    have hsign : ∀ kind : ReferenceKind, '>' ∉ kind.sign.toList := by
      intro kind
      cases kind <;> decide
    exact ⟨collapse_angles h fun c hc => indirectionLeft_angles hh hc (hsign c.kind),
      collapse_angles h fun _ hc => indirectionRight_angles hh hc⟩
  | complexType inner => exact ⟨worded (.head _) (by decide),TextInvariant.pure _⟩
  | imaginaryType inner => exact ⟨worded (.head _) (by decide),TextInvariant.pure _⟩
  | arrayType element bound => exact ⟨(hh (h.printed (.head _))).1,arrayTypeRight_angles hh h⟩
  | pointerToMemberType classType memberType => exact pointerToMemberType_angles hh h
  | functionType f => exact functionType_angles hh h
  | templateParam index =>
    have hname : (anglesApart hspaced).Fits ("auto:" ++ toString (index + 1)) :=
      (anglesApart hspaced).unmarked (unmarked_append (by decide) (unmarked_toString (index + 1)))
    have hleft : (anglesApart hspaced).Writes (templateParam (Halves.levels config n).left
        (fun index => write ("auto:" ++ toString (index + 1))) place index) :=
      templateParam_angles h (TextInvariant.write hname) fun h => (hh h).1
    have hright : (anglesApart hspaced).Writes (templateParam (Halves.levels config n).right
        (fun _ => pure ()) place index) :=
      templateParam_angles h (TextInvariant.pure ()) fun h => (hh h).2
    exact ⟨hleft,hright⟩
  | _ => exact ⟨TextInvariant.composed (angled_pieces hh h) nofun,TextInvariant.pure _⟩

end

/-- However many levels are left, angles stand apart. -/
theorem Halves.levels_angles {config : Config}
    (hspaced : config.closingAngleSpace = true) (n : Nat) :
    Halves.SpaceAngles hspaced n := by
  induction n with
  | zero => exact fun _ => ⟨Says.exhausted,Says.exhausted⟩
  | succ n ih =>
    intro place node h
    obtain ⟨hleft,hright⟩ := halves_angles ih h
    exact ⟨TextInvariant.asking step_puts.grows (step_asks config) fun _ => hleft,
      TextInvariant.asking step_puts.grows (step_asks config) fun _ => hright⟩

end MangledNames.Printing
