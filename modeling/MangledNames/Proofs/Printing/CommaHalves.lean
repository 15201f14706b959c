import MangledNames.Proofs.Printing.CommaNames
set_option autoImplicit false

/-!
What the halves of nodes are as items of lists, and next to what stands between them.
-/

namespace MangledNames

namespace Printing

open Edges Node

def CleanNames (node : Node) : Prop := ∀ name ∈ node.spelledNames, CleanName name

/-- Each element of an expanded pack shows something, if there are several. -/
def ShowsElements (config : Config) (spot : Place × Node) : Prop :=
  ∀ pattern size, spot.2.pattern? = some pattern → packCount spot.1 pattern = some size → 2 ≤ size →
    ∀ i < size, Shows config { spot.1 with packIndex := some i } pattern

structure CleanAt (config : Config) (spot : Place × Node) : Prop where
  names : CleanNames spot.2
  asRead : AsRead spot.2
  elements : ShowsElements config spot

/-- All that is visited while a node is printed is clean. -/
abbrev Clean (config : Config) : Place × Node → Prop := Everywhere config (CleanAt config)

/-- Two halves that are an item, with something between them or not: where the left one may be
empty, the right one starts as an item does. -/
inductive Flanks (left right : Printer Unit) : Prop
  | whole : Makes left .whole → Makes right .tail → Flanks left right
  | item : Makes left .item → Makes right .item → Flanks left right

namespace Flanks

variable {l r : Printer Unit}

theorem left (h : Flanks l r) : Makes l .item := by
  cases h with
  | whole hleft _ => exact hleft.mono (by decide)
  | item hleft _ => exact hleft

theorem right (h : Flanks l r) : Makes r .tail := by
  cases h with
  | whole _ hright => exact hright
  | item _ hright => exact hright.mono (by decide)

theorem surrounds {spaced : Bool} (h : Flanks l r) : (items spaced).Surrounds l r := by
  intro m hm
  have hm : Makes m .item := hm
  cases h with
  | whole hleft hright => exact Makes.mono (hleft.bind fun _ => hm.bind fun _ => hright) (by decide)
  | item hleft hright => exact Makes.mono (hleft.bind fun _ => hm.bind fun _ => hright) (by decide)

/-- What is written behind the left half may belong to it. -/
theorem andThen {more : Printer Unit} (h : Flanks l r) (hmore : Makes more .item) :
    Flanks (l >>= fun _ => more) r := by
  cases h with
  | whole hleft hright => exact .whole (.mono (hleft.bind fun _ => hmore) (by decide)) hright
  | item hleft hright => exact .item (.mono (hleft.bind fun _ => hmore) (by decide)) hright

end Flanks

/-- The halves of clean nodes are items, with so many levels left. -/
def Halves.Flank (config : Config) (n : Nat) : Prop :=
  ∀ {place : Place} {node : Node}, Clean config (place,node) →
    Flanks ((Halves.levels config n).left place node) ((Halves.levels config n).right place node)

theorem clean_sourceName {config : Config} {place : Place} {name : String} (h : CleanName name) :
    Clean config (place,.sourceName name) :=
  Everywhere.sourceName ⟨by simpa [CleanNames,spelledNames] using h,trivial,nofun⟩

theorem elements_fit {config : Config} {n : Nat} {place : Place} {node pattern : Node} {size : Nat}
    {before : String} {texts : List String}
    (h : Clean config (place,node)) (hpattern : node.pattern? = some pattern)
    (hsize : packCount place pattern = some size)
    (hitems : ItemTexts true
      (fun i => (Halves.levels config n).print { place with packIndex := some i } pattern)
      false before (List.range size) texts)
    (hfits : ∀ text ∈ texts, item.Fits text.toList) :
      item.Fits (", ".intercalate texts).toList := by
  by_cases hmany : 2 ≤ size
  · refine intercalate_induction .empty joined_fits hfits
      (hitems.all fun i hi before text hcontinues => ?_)
    obtain ⟨u,v,hu,helement,rfl,hadded⟩ := hcontinues
    have hshown :=
      h.self.elements pattern size hpattern hsize hmany i (by simpa using hi) n u v helement
    have hgrown :=
      Halves.print_grows n { place with packIndex := some i } pattern u hu () v helement
    rwa [Ne,hgrown.mark_eq_iff hu hadded] at hshown
  · have hcount : texts.length = size := by simpa using hitems.length
    rcases texts with _ | ⟨text,_ | ⟨next,texts⟩⟩
    · exact .empty
    · simpa using hfits
    · simp only [List.length_cons] at hcount
      omega

section
variable {config : Config} {n : Nat} (hh : Halves.Flank config n) {place : Place}
include hh

theorem print_makes {node : Node} (h : Clean config (place,node)) :
    Makes ((Halves.levels config n).print place node) .item :=
  TextInvariant.Surrounds.print (I := items config.closingAngleSpace) (hh h).surrounds

theorem clean_pieces {node : Node} (h : Clean config (place,node)) :
    TextInvariant.Pieces (items config.closingAngleSpace) (Halves.levels config n) place node where
  visits hvisits := (hh (h.visits hvisits)).surrounds
  names name hname :=
    ⟨(h.self.names name hname).fits,print_makes hh (clean_sourceName (h.self.names name hname))⟩
  asRead := h.self.asRead
  framed _ htype := print_makes hh (h.printed (framedType_printed htype))
  expands hpattern hsize hitems hfits := elements_fit h hpattern hsize hitems hfits

theorem parameterList_makes {nodes : List Node} (h : ∀ node ∈ nodes, Clean config (place,node)) :
    Makes (parameterList (Halves.levels config n) place nodes) .whole := by
  have listed :
      (items config.closingAngleSpace).Writes ((Halves.levels config n).printList place nodes) :=
    TextInvariant.printList fun node hnode => print_makes hh (h node hnode)
  refine (Says.enclosed "(" ")" listed).imp ?_
  rintro _ ⟨inner,rfl,hinner⟩
  exact framed_fits (by decide) hinner

theorem functionType_flanks {f : FunctionType Node} (h : Clean config (place,.functionType f)) :
    Flanks (leftHalf config (Halves.levels config n) place (.functionType f))
      (rightHalf config (Halves.levels config n) place (.functionType f)) := by
  have hparameters : ∀ node ∈ f.parameters, Clean config (place,node) := fun node hnode =>
    h.printed (.tail _ (List.mem_append_left _ hnode))
  have apart : Makes (do
      unless ← hasRightSide config place f.returnType do write " ") .item :=
    .asking (hasRightSide_grows place _) (hasRightSide_asks config place _) fun _ =>
      .ite (fun _ => .pure _) fun _ => .mono (.literal (by decide)) (by decide)
  have specified : (items config.closingAngleSpace).Writes
      (exceptionSpec (Halves.levels config n) place f.exceptionSpec) :=
    TextInvariant.exceptionSpec fun node hnode =>
      print_makes hh (h.printed (.tail _ (List.mem_append_right _ hnode)))
  have qualified : (items config.closingAngleSpace).Writes (memberQualifiers f.cv f.ref) :=
    TextInvariant.memberQualifiers f.cv f.ref
  have safe : Makes (if f.transactionSafe then write " transaction_safe" else pure ()) .item :=
    .ite (fun _ => .mono (.literal (by decide)) (by decide)) fun _ => .pure _
  have ending := Makes.bind qualified fun _ => Makes.bind specified fun _ => safe
  have hright : rightHalf config (Halves.levels config n) place (.functionType f) = _ :=
    functionTypeRight_parts _ _ _
  rw [hright]
  cases (hh (h.printed (.head _))).andThen apart with
  | whole hleft hreturn =>
    exact .whole hleft (.mono ((parameterList_makes hh hparameters).bind fun _ =>
      hreturn.bind fun _ => ending) (by decide))
  | item hleft hreturn =>
    exact .item hleft (.mono ((parameterList_makes hh hparameters).bind fun _ =>
      hreturn.bind fun _ => ending) (by decide))

theorem indirectionLeft_makes {target : Node} (h : Clean config (place,target)) {sign : String}
    (hsign : whole.Fits sign.toList) :
    Makes (indirectionLeft (Halves.levels config n) place target sign) .whole := by
  have signed : Makes (do
      if ← ofExcept (hasArray place target) then write " "
      if ← ofExcept (needsParentheses place target) then write "("
      write sign) .whole :=
    .ofExcept fun _ _ => .writeIf (by decide) (.ofExcept fun _ _ =>
      .writeIf (by decide) (.write hsign) (by decide)) (by decide)
  exact .mono ((hh h).left.bind fun _ => signed) (by decide)

theorem indirectionRight_makes {target : Node} (h : Clean config (place,target)) :
    Makes (indirectionRight (Halves.levels config n) place target) .tail :=
  .ofExcept fun _ _ => .writeIf (by decide) (hh h).right (by decide)

theorem pointerToMemberType_flanks {classType memberType : Node}
    (h : Clean config (place,.pointerToMemberType classType memberType)) :
    Flanks (leftHalf config (Halves.levels config n) place
      (.pointerToMemberType classType memberType))
      (rightHalf config (Halves.levels config n) place
        (.pointerToMemberType classType memberType)) := by
  have hmember : Clean config (place,memberType) := h.printed (.tail _ (.head _))
  have named : Makes (do
      (Halves.levels config n).print place classType
      write "::*") .whole :=
    .mono ((print_makes hh (h.printed (.head _))).bind fun _ => .literal (by decide)) (by decide)
  have signed : Makes (do
      write (if ← ofExcept (needsParentheses place memberType) then "(" else " ")
      (Halves.levels config n).print place classType
      write "::*") .whole := by
    refine .ofExcept fun needed _ => ?_
    cases needed with
    | true => exact .mono ((Makes.literal (by decide)).bind fun _ => named) (by decide)
    | false => exact .mono ((Makes.literal (by decide)).bind fun _ => named) (by decide)
  refine .whole (.mono ((hh hmember).left.bind fun _ => signed) (by decide)) ?_
  exact .ofExcept fun _ _ => .writeIf (by decide) (hh hmember).right (by decide)

theorem referenceType_flanks {referent : Node} {kind : ReferenceKind}
    (h : Clean config (place,.referenceType referent kind)) :
    Flanks (leftHalf config (Halves.levels config n) place (.referenceType referent kind))
      (rightHalf config (Halves.levels config n) place (.referenceType referent kind)) := by
  have hgrows : Grows (collapse config place referent kind) :=
    grows_of_sparing
      (collapse_alike (parallel_sparing (.refl config)) (fun _ => throws_sparing _ _) _ _ _)
  refine .whole (.asked hgrows (fun _ _ _ => collapse_ok) fun c hc => ?_)
    (.asked hgrows (fun _ _ _ => collapse_ok) fun c hc => ?_)
  · obtain ⟨_,hway,_⟩ := hc.way
    have hsign : whole.Fits c.kind.sign.toList := by
      cases c.kind <;> exact (ofText_fits (by decide)).mono (by decide)
    exact indirectionLeft_makes hh (h.visits (.referent hway)) hsign
  · obtain ⟨_,hway,_⟩ := hc.way
    exact indirectionRight_makes hh (h.visits (.referent hway))

theorem bound_makes {element : Node} {bound : Option (Dimension Node)}
    (h : Clean config (place,.arrayType element bound)) :
    Makes (do
      if let some bound := bound then dimension (Halves.levels config n) place bound
      write "]"
      (Halves.levels config n).right place element) .closer := by
  have helement : Clean config (place,element) := h.printed (.head _)
  cases bound with
  | none => exact .mono ((Makes.literal (by decide)).bind fun _ => (hh helement).right) (by decide)
  | some bound =>
    have hbound : (items config.closingAngleSpace).Writes
        (dimension (Halves.levels config n) place bound) :=
      TextInvariant.dimension fun node hnode => print_makes hh (h.printed (.tail _ hnode))
    exact .mono (Makes.bind hbound fun _ => (Makes.literal (by decide)).bind fun _ =>
      (hh helement).right) (by decide)

theorem arrayType_flanks {element : Node} {bound : Option (Dimension Node)}
    (h : Clean config (place,.arrayType element bound)) :
    Flanks (leftHalf config (Halves.levels config n) place (.arrayType element bound))
      (rightHalf config (Halves.levels config n) place (.arrayType element bound)) := by
  have helement : Clean config (place,element) := h.printed (.head _)
  have hright : Makes (rightHalf config (Halves.levels config n) place (.arrayType element bound))
      .whole := by
    refine .asking last_grows last_asks fun _ => .writeUnless (by decide) ?_ (by decide)
    exact .mono ((Makes.literal (by decide)).bind fun _ => bound_makes hh h) (by decide)
  cases hh helement with
  | whole hleft _ => exact .whole hleft (hright.mono (by decide))
  | item hleft _ => exact .item hleft (hright.mono (by decide))

theorem templateParam_flanks {index : Nat} (h : Clean config (place,.templateParam index)) :
    Flanks (leftHalf config (Halves.levels config n) place (.templateParam index))
      (rightHalf config (Halves.levels config n) place (.templateParam index)) := by
  unfold leftHalf rightHalf templateParam
  by_cases hauto : (place.inClosure && (place.argument? index).isNone) = true
  · simp only [if_pos hauto]
    have hname :=
      (ofText_fits (show ',' ∉ "auto:".toList by decide)).text_append (number_fits (index + 1))
    exact .item (.write (hname.mono (by decide))) (.pure _)
  · simp only [if_neg hauto]
    cases hresolve : resolve place index with
    | error error => exact .item (.ofExcept nofun) (.ofExcept nofun)
    | ok found =>
      cases hh (h.visits (.argument hresolve)) with
      | whole hleft hright =>
        exact .whole (.ofExcept fun _ hfound => by cases hfound; exact hleft)
          (.ofExcept fun _ hfound => by cases hfound; exact hright)
      | item hleft hright =>
        exact .item (.ofExcept fun _ hfound => by cases hfound; exact hleft)
          (.ofExcept fun _ hfound => by cases hfound; exact hright)

theorem halves_flank {node : Node} (h : Clean config (place,node)) :
    Flanks (leftHalf config (Halves.levels config n) place node)
      (rightHalf config (Halves.levels config n) place node) := by
  -- Behind the left half there is nothing but a word.
  have wordy : ∀ {inner : Node} {text : String}, inner ∈ node.printed → whole.Fits text.toList →
      Makes (do
        (Halves.levels config n).left place inner
        write text) .whole :=
    fun hpart htext => .mono ((hh (h.printed hpart)).left.bind fun _ => .write htext) (by decide)
  cases node with
  | qualifiedType inner cv =>
    have qualified : (items config.closingAngleSpace).Writes (cvQualifiers cv) :=
      TextInvariant.cvQualifiers cv
    exact (hh (h.printed (.head _))).andThen qualified
  | vendorQualifiedType inner qualifier arguments =>
    have hqualifier : whole.Fits (" " ++ qualifier).toList :=
      ((ofText_fits (by decide)).text_append (h.self.names _ (.head _)).fits).mono (by decide)
    have listed : (items config.closingAngleSpace).Writes
        (optionalTemplateArgs config (Halves.levels config n) place arguments) :=
      TextInvariant.optionalTemplateArgs fun node hnode =>
        print_makes hh (h.printed (.tail _ hnode))
    exact (hh (h.printed (.head _))).andThen
      (.mono ((Makes.write hqualifier).bind fun _ => listed) (by decide))
  | pointerType pointee =>
    exact .whole
      (indirectionLeft_makes hh (h.printed (.head _)) ((ofText_fits (by decide)).mono (by decide)))
      (indirectionRight_makes hh (h.printed (.head _)))
  | referenceType referent kind => exact referenceType_flanks hh h
  | complexType inner =>
    exact .whole (wordy (.head _) ((ofText_fits (by decide)).mono (by decide)))
      (.mono (.pure _) (by decide))
  | imaginaryType inner =>
    exact .whole (wordy (.head _) ((ofText_fits (by decide)).mono (by decide)))
      (.mono (.pure _) (by decide))
  | arrayType element bound => exact arrayType_flanks hh h
  | pointerToMemberType classType memberType => exact pointerToMemberType_flanks hh h
  | functionType f => exact functionType_flanks hh h
  | templateParam index => exact templateParam_flanks hh h
  | _ => exact .item (TextInvariant.composed (clean_pieces hh h) nofun) (.pure _)

end

/-- However many levels are left, no comma stands next to nothing. -/
theorem Halves.levels_flank (config : Config) (n : Nat) : Halves.Flank config n := by
  induction n with
  | zero => exact fun _ => .item .exhausted .exhausted
  | succ n ih =>
    intro place node h
    have stepped : ∀ {m : Printer Unit} {e : Edges}, Makes m e → Makes (do
        step config
        m) e := fun hm => .asking step_puts.grows (step_asks config) fun _ => hm
    cases halves_flank ih h with
    | whole hleft hright => exact .whole (stepped hleft) (stepped hright)
    | item hleft hright => exact .item (stepped hleft) (stepped hright)

end Printing

end MangledNames
