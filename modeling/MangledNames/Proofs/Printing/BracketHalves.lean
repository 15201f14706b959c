import MangledNames.Proofs.Printing.BracketRuns
set_option autoImplicit false

/-!
The right half of a node closes what its left half leaves open.
-/

namespace MangledNames.Printing

open Node

/-- What the left half of a node leaves open, which is nothing if it is flat, the right half
closes. -/
structure Closes (left right : Printer Unit) (flat : Bool) (opened : List Char) : Prop where
  left : Adds left [] opened
  right : Adds right opened []
  flat : flat = true → opened = []

def Halves.Matched (h : Halves) : Prop :=
  ∀ {place : Place} {node : Node}, TidyScopes place.scopes → node.Throughout Tidy →
    ∃ opened, Closes (h.left place node) (h.right place node) (isFlat node) opened

theorem Closes.surrounds {left right : Printer Unit} {flat spaced : Bool} {opened : List Char}
    (h : Closes left right flat opened) : (balanced spaced).Surrounds left right := by
  intro m hm
  have hm : Adds m [] [] := hm
  exact h.left.andThen (hm.anywhere.andThen h.right)

theorem nest_name {name : String} (h : PlainName name) : nest [] name.toList = some [] := by
  rcases h with hbare | rfl
  · exact nest_bare hbare []
  · decide

theorem plainNames_spelled {node : Node} (h : PlainNames node) :
    ∀ name ∈ node.spelledNames, PlainName name := by
  cases node with
  | structuredBindingName names => exact h
  | abiTaggedName inner names => exact h
  | sourceName name | literalOperatorName name | vendorOperatorName arity name
  | vendorExtendedType name arguments | vendorQualifiedType inner name arguments =>
    exact List.forall_mem_singleton.mpr h
  | _ => exact List.forall_mem_nil _

section
variable {h : Halves} (hh : h.Matched) {place : Place} (hp : TidyScopes place.scopes)
    {due : List Char}
include hh hp

theorem print_adds {node : Node} (hn : node.Throughout Tidy) :
    Adds (h.print place node) due due := by
  obtain ⟨opened,hcloses⟩ := hh hp hn
  exact (hcloses.left.andThen hcloses.right).anywhere

theorem tidy_pieces (config : Config) {node : Node} (hn : node.Throughout Tidy) :
    TextInvariant.Pieces (balanced config.closingAngleSpace) h place node where
  visits hvisits := by
    obtain ⟨hnode,hscopes⟩ := visits_throughout hvisits ⟨hn,hp⟩
    obtain ⟨_,hcloses⟩ := hh hscopes hnode
    exact hcloses.surrounds
  names name hname := by
    have hplain := plainNames_spelled hn.self.names name hname
    exact ⟨nest_name hplain,print_adds hh hp (.of_children ⟨hplain,trivial,trivial⟩ nofun)⟩
  asRead := hn.self.asRead
  framed _ htype := print_adds hh hp (hn.printed (framedType_printed htype))
  expands _ _ _ hfits := by
    have hcomma : nest [] ", ".toList = some [] := by decide
    exact TextInvariant.spread_fits hcomma hfits

/-- A declarator around a target, with parentheses of its own if the target needs them. -/
theorem target_closes {target : Node} (hn : target.Throughout Tidy) {left : Printer Unit}
    (sign : Bool → Printer Unit)
    (hleft : ∀ {opened later : List Char}, Adds (h.left place target) [] opened →
      Adds (ofExcept (needsParentheses place target) >>= sign) opened later → Adds left [] later)
    (hopening : ∀ due, Adds (sign true) due (')' :: due))
      (hbare : ∀ due, Adds (sign false) due due) :
    ∃ opened, Closes left (indirectionRight h place target) (isPlainTarget target && isFlat target)
      opened := by
  obtain ⟨opened,hcloses⟩ := hh hp hn
  have left :
    ∀ {later : List Char}, Adds (ofExcept (needsParentheses place target) >>= sign) opened later →
      Adds left [] later := hleft hcloses.left
  have right : ∀ {due : List Char}, Adds (do
      if ← ofExcept (needsParentheses place target) then write ")"
      h.right place target) due [] → Adds (indirectionRight h place target) due [] := id
  cases hneeds : needsParentheses place target with
  | error error =>
    -- nothing is printed, so that anything may be said of it
    rw [hneeds] at left right
    exact ⟨[],left (.failing error),right (.failing error),fun _ => rfl⟩
  | ok needed =>
    rw [hneeds] at left right
    cases needed with
    | true =>
      refine ⟨')' :: opened,left (.known (hopening opened)),right (.known ?_),fun hflat => ?_⟩
      · exact (Adds.closes [')'] (by decide)).andThen hcloses.right
      · simp only [Bool.and_eq_true] at hflat
        rw [needsParentheses_plain hflat.1] at hneeds
        cases hneeds
    | false =>
      refine ⟨opened,left (.known (hbare opened)),right (.known hcloses.right),fun hflat => ?_⟩
      simp only [Bool.and_eq_true] at hflat
      exact hcloses.flat hflat.2

theorem indirection_closes {target : Node} (hn : target.Throughout Tidy) (sign : String)
    (hsign : Bare sign.toList) :
    ∃ opened, Closes (indirectionLeft h place target sign) (indirectionRight h place target)
      (isPlainTarget target && isFlat target) opened := by
  refine target_closes hh hp hn (fun needed => do
    if needed then write "("
    write sign) (fun hleft hsign => ?_) (fun due => ?_) fun due => .bare hsign
  · exact hleft.andThen (.asked (Grows.ofExcept _) (asks_ofExcept _) fun _ =>
      .writeIf (by decide) hsign)
  · exact (Adds.opens [')'] (by decide)).andThen (.bare hsign)

theorem templateParam_closes (index : Nat) : ∃ opened, Closes
    (templateParam h.left (fun index => write ("auto:" ++ toString (index + 1))) place index)
    (templateParam h.right (fun _ => pure ()) place index) false opened := by
  unfold templateParam
  by_cases hauto : (place.inClosure && (place.argument? index).isNone) = true
  · simp only [if_pos hauto]
    exact ⟨[],.bare (bare_append (by decide) (unmarked_toString _).bare),.pure _,nofun⟩
  · simp only [if_neg hauto]
    cases hresolve : resolve place index with
    | error error => exact ⟨[],.failing error,.failing error,nofun⟩
    | ok found =>
      obtain ⟨argument,scopes⟩ := found
      obtain ⟨hargument,hscopes⟩ := resolve_throughout hp hresolve
      have hp' : TidyScopes { place with scopes := scopes, packIndex := none }.scopes := hscopes
      obtain ⟨opened,hcloses⟩ := hh hp' hargument
      exact ⟨opened,.known hcloses.left,.known hcloses.right,nofun⟩

theorem arrayType_closes (config : Config) {element : Node} {bound : Option (Dimension Node)}
    (hn : (Node.arrayType element bound).Throughout Tidy) :
    ∃ opened, Closes (leftHalf config h place (.arrayType element bound))
      (rightHalf config h place (.arrayType element bound)) (isFlat element) opened := by
  obtain ⟨opened,hcloses⟩ := hh hp (hn.printed (.head _))
  refine ⟨opened,hcloses.left,.asked last_grows last_asks fun _ =>
    .writeUnless (by decide) ?_,hcloses.flat⟩
  have closed : Adds (do
      write "]"
      h.right place element) (']' :: opened)
        [] := (Adds.closes [']'] (by decide)).andThen hcloses.right
  refine (Adds.opens [']'] (by decide)).andThen ?_
  cases bound with
  | none => exact closed
  | some bound =>
    have hbound : (balanced config.closingAngleSpace).Writes (dimension h place bound) :=
      TextInvariant.dimension fun node hnode => print_adds hh hp (hn.printed (.tail _ hnode))
    exact (Adds.anywhere hbound).andThen closed

theorem pointerToMemberType_closes (config : Config) {classType memberType : Node}
    (hn : (Node.pointerToMemberType classType memberType).Throughout Tidy) :
    ∃ opened, Closes (leftHalf config h place (.pointerToMemberType classType memberType))
      (rightHalf config h place (.pointerToMemberType classType memberType))
      (isPlainTarget memberType && isFlat memberType) opened := by
  have member : ∀ {due : List Char}, Adds (do
      h.print place classType
      write "::*") due due := (print_adds hh hp (hn.printed (.head _))).andThen (.bare (by decide))
  refine target_closes hh hp (hn.printed (.tail _ (.head _))) (fun needed => do
    write (if needed then "(" else " ")
    h.print place classType
    write "::*") (fun hleft hsign => hleft.andThen hsign) (fun due => ?_) fun due => ?_
  · exact (Adds.opens [')'] (by decide)).andThen member
  · exact (Adds.bare (by decide)).andThen member

theorem functionType_closes (config : Config) {f : FunctionType Node}
    (hn : (Node.functionType f).Throughout Tidy) :
    ∃ opened, Closes (leftHalf config h place (.functionType f))
      (rightHalf config h place (.functionType f)) (isFlat f.returnType) opened := by
  obtain ⟨opened,hcloses⟩ := hh hp (hn.printed (.head _))
  have hright : rightHalf config h place (.functionType f) = _ := functionTypeRight_parts _ _ _
  have listed : (balanced config.closingAngleSpace).Writes (parameterList h place f.parameters) :=
    TextInvariant.parameterList fun node hnode =>
      print_adds hh hp (hn.printed (.tail _ (List.mem_append_left _ hnode)))
  have specified :
      (balanced config.closingAngleSpace).Writes (exceptionSpec h place f.exceptionSpec) :=
    TextInvariant.exceptionSpec fun node hnode =>
      print_adds hh hp (hn.printed (.tail _ (List.mem_append_right _ hnode)))
  have qualified : (balanced config.closingAngleSpace).Writes (memberQualifiers f.cv f.ref) :=
    TextInvariant.memberQualifiers f.cv f.ref
  have ending : Adds (if f.transactionSafe then write " transaction_safe" else pure ()) [] [] :=
    .ite (fun _ => .bare (by decide)) fun _ => .pure _
  refine ⟨opened,hcloses.left.andThen ?_,?_,hcloses.flat⟩
  · refine .asked (hasRightSide_grows place _) (hasRightSide_asks config place _) fun _ => ?_
    exact .ite (fun _ => .pure _) fun _ => .bare (by decide)
  · rw [hright]
    exact (Adds.anywhere listed).andThen (hcloses.right.andThen (Adds.andThen qualified
      (Adds.andThen specified ending)))

theorem referenceType_closes (config : Config) {referent : Node} (kind : ReferenceKind)
    (hn : referent.Throughout Tidy) :
    ∃ opened, Closes (leftHalf config h place (.referenceType referent kind))
      (rightHalf config h place (.referenceType referent kind))
      (isPlainTarget referent && isFlat referent) opened := by
  obtain ⟨reference,hreference,htidy⟩ := collapseIn_answers config place.packIndex hp kind hn
  have hp' : TidyScopes { place with scopes := reference.scopes }.scopes := htidy.scopes
  have hsign : Bare reference.kind.sign.toList := by
    cases reference.kind <;> decide
  have hgrows : Grows (collapse config place referent kind) := collapse_grows place referent kind
  obtain ⟨opened,hcloses⟩ := indirection_closes hh hp' htidy.referent _ hsign
  refine ⟨opened,.answered hgrows hreference hcloses.left,.answered hgrows hreference hcloses.right,
    fun hflat => hcloses.flat ?_⟩
  rw [Bool.and_eq_true]
  exact htidy.flat hflat

/-- What is printed with the left half alone has to be flat. -/
theorem complex_adds {inner : Node} (hn : inner.Throughout Tidy) (hflat : isFlat inner = true)
    {text : String} (htext : Bare text.toList) : Adds (do
      h.left place inner
      write text) [] [] := by
  obtain ⟨opened,hcloses⟩ := hh hp hn
  obtain rfl := hcloses.flat hflat
  exact hcloses.left.andThen (.bare htext)

theorem vendorQualifiedType_closes (config : Config) {inner : Node} {qualifier : String}
    {arguments : Option (List Node)}
    (hn : (Node.vendorQualifiedType inner qualifier arguments).Throughout Tidy) :
    ∃ opened, Closes (leftHalf config h place (.vendorQualifiedType inner qualifier arguments))
      (rightHalf config h place (.vendorQualifiedType inner qualifier arguments)) (isFlat inner)
      opened := by
  obtain ⟨opened,hcloses⟩ := hh hp (hn.printed (.head _))
  have hqualifier : nest [] (" " ++ qualifier).toList = some [] :=
    nest_text_append (by decide) (nest_name hn.self.names)
  have listed :
      (balanced config.closingAngleSpace).Writes (optionalTemplateArgs config h place arguments) :=
    TextInvariant.optionalTemplateArgs fun node hnode =>
      print_adds hh hp (hn.printed (.tail _ hnode))
  have qualified : Adds (do
      write (" " ++ qualifier)
      optionalTemplateArgs config h place arguments) [] [] := (Adds.write hqualifier).andThen listed
  exact ⟨opened,hcloses.left.andThen qualified.anywhere,hcloses.right,hcloses.flat⟩

theorem halves_close (config : Config) {node : Node} (hn : node.Throughout Tidy) :
    ∃ opened, Closes (leftHalf config h place node) (rightHalf config h place node) (isFlat node)
      opened := by
  cases node with
  | qualifiedType inner cv =>
    obtain ⟨opened,hcloses⟩ := hh hp (hn.printed (.head _))
    have qualified : (balanced config.closingAngleSpace).Writes (cvQualifiers cv) :=
      TextInvariant.cvQualifiers cv
    exact ⟨opened,hcloses.left.andThen (Adds.anywhere qualified),hcloses.right,hcloses.flat⟩
  | vendorQualifiedType inner qualifier arguments =>
    exact vendorQualifiedType_closes hh hp config hn
  | pointerType pointee => exact indirection_closes hh hp (hn.printed (.head _)) "*" (by decide)
  | referenceType referent kind =>
    exact referenceType_closes hh hp config kind (hn.printed (.head _))
  | complexType inner =>
    exact ⟨[],complex_adds hh hp (hn.printed (.head _)) hn.self.complex
      (by decide),.pure _,fun _ => rfl⟩
  | imaginaryType inner =>
    exact ⟨[],complex_adds hh hp (hn.printed (.head _)) hn.self.complex
      (by decide),.pure _,fun _ => rfl⟩
  | arrayType element bound => exact arrayType_closes hh hp config hn
  | pointerToMemberType classType memberType => exact pointerToMemberType_closes hh hp config hn
  | functionType f => exact functionType_closes hh hp config hn
  | templateParam index => exact templateParam_closes hh hp index
  | _ => exact ⟨[],TextInvariant.composed (tidy_pieces hh hp config hn) nofun,.pure _,fun _ => rfl⟩

end

theorem Halves.next_matched (config : Config) {h : Halves} (hh : h.Matched) :
    (h.next config).Matched := by
  intro place node hp hn
  obtain ⟨opened,hcloses⟩ := halves_close hh hp config hn
  exact ⟨opened,.asked step_puts.grows (step_asks config) fun _ => hcloses.left,
    .asked step_puts.grows (step_asks config) fun _ => hcloses.right,hcloses.flat⟩

/-- However many levels are left, what is printed to the left of a declarator is closed to its
right. -/
theorem Halves.levels_matched (config : Config) (n : Nat) : (Halves.levels config n).Matched := by
  induction n with
  | zero => exact fun _ _ => ⟨[],Says.exhausted,Says.exhausted,fun _ => rfl⟩
  | succ n ih => exact Halves.next_matched config ih

end MangledNames.Printing
