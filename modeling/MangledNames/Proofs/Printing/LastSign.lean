import MangledNames.Proofs.Printing.OneSided
import MangledNames.Proofs.Printing.Texts
set_option autoImplicit false

/-!
Types that are printed without a sign of a reference at the end of their left half.
-/

namespace MangledNames.Printing

/-- A text that ends, and not with the sign of a reference. -/
def isUnsigned (text : String) : Bool :=
  match text.toList.getLast? with
  | some c => c != '&'
  | none => false

abbrev Unsigned (text : String) : Prop := isUnsigned text = true

/-- Names that end without a sign. -/
def nameEndsUnsigned : Node → Bool
  | .sourceName name => isUnsigned name
  | .nestedName _ name => nameEndsUnsigned name
  | .templateName _ _ | .unnamedTypeName _ | .closureTypeName _ _ | .specialSubstitution _ _ => true
  | _ => false

/-- Types of which the left half ends without a sign, whatever they are made of. -/
def endsUnsigned : Node → Bool
  | .builtinType type => isUnsigned type.name
  | .qualifiedType inner cv => !cv.isEmpty || endsUnsigned inner
  | .vendorExtendedType name none => isUnsigned name
  | .vendorQualifiedType _ qualifier none => isUnsigned (" " ++ qualifier)
  | .vendorExtendedType _ (some _) | .vendorQualifiedType _ _ (some _) | .pointerType _
  | .pointerToMemberType _ _ | .complexType _ | .imaginaryType _ | .vectorType _ _
  | .decltypeType _ => true
  | .elaboratedType _ name => nameEndsUnsigned name
  | node => nameEndsUnsigned node

theorem unsigned_chars {chars : List Char} {text : String} (h : text = String.ofList chars)
    (hlast : (match chars.getLast? with
      | some c => c != '&'
      | none => false) = true) : Unsigned text := by
  unfold Unsigned isUnsigned
  rw [h,String.toList_ofList]
  exact hlast

theorem unsigned_append {text text' : String} (h : Unsigned text') : Unsigned (text ++ text') := by
  unfold Unsigned isUnsigned at h ⊢
  cases hlast : text'.toList.getLast? with
  | none =>
    rw [hlast] at h
    cases h
  | some c =>
    rw [hlast] at h
    simpa [List.getLast?_append,hlast] using h

section
variable {α β : Type} {m : Printer α} {q : α → Printer β} {k : Unit → Printer β}

namespace Says

theorem exhausted {config : Config} {p : String → Prop} : Says (do
    step config
    fail (.recursionLimitExceeded config.recursionLimit) : Printer Unit) p := by
  intro s _ a t ht
  obtain ⟨fault,after,hfails,_⟩ := exhausted_fails config s
  exact absurd (hfails.symm.trans ht) nofun

theorem throw {p : String → Prop} (fault : Fault) :
    Says (MonadExcept.throw fault : Printer α) p := by
  intro s _ a t ht
  cases ht

theorem ofExcept {found : Except DemangleError α} {p : String → Prop}
    (h : ∀ a, found = .ok a → Says (q a) p) : Says (Printing.ofExcept found >>= q) p := by
  intro s hs b u hu
  obtain ⟨a,t,ht,hrest⟩ := bind_ok hu
  obtain ⟨hfound,rfl⟩ := ofExcept_ok ht
  exact h a hfound t hs b u hrest

/-- What is asked for is no part of the text. -/
theorem asked {found : α → Prop} {p : String → Prop} (hgrows : Grows m)
    (hasks : ∀ s a t, m s = .ok a t → t.output = s.output ∧ found a)
    (hq : ∀ a, found a → Says (q a) p) :
    Says (m >>= q) p := by
  intro s hs b u hu
  obtain ⟨a,t,ht,hrest⟩ := bind_ok hu
  obtain ⟨hsame,ha⟩ := hasks s a t ht
  have hleads := hgrows s hs a t ht
  obtain ⟨hfurther,added,hadded,hadds⟩ := hq a ha t (hleads.sound hs) b u hrest
  rw [hsame] at hadded
  exact ⟨hleads.trans hfurther,added,hadded,hadds⟩

/-- A fixed text before what is known of the rest. -/
theorem written {p : String → Prop} (text : String) (h : Says (k ()) p) :
    Says (Printing.write text >>= k) fun whole => ∃ rest, whole = text ++ rest ∧ p rest :=
  (write text).bind (fun _ => h) fun _ rest htext hrest => ⟨rest,by rw [htext],hrest⟩

theorem asks (h : Grows m) (hm : Asks m) : Says m (· = "") := by
  intro s hs a t ht
  exact ⟨h s hs a t ht,"",by rw [hm s a t ht,String.append_empty],rfl⟩

/-- A run ends as its last part does. -/
theorem ending (h : Grows m) (hq : ∀ a, Says (q a) Unsigned) : Says (m >>= q) Unsigned :=
  (of_grows h).bind hq fun _ _ _ => unsigned_append

theorem unsigned {text : String} (h : Unsigned text) : Says (Printing.write text) Unsigned :=
  (write text).imp fun _ htext => htext ▸ h

theorem writeIf_ending {c : Prop} [Decidable c] {text : String} (h : Says (k ()) Unsigned) :
    Says (if c then Printing.write text >>= k else k ()) Unsigned := by
  split
  · exact ending (Says.write text).grows fun _ => h
  · exact h

/-- Nothing follows. -/
theorem ended (h : Says m Unsigned) (hq : ∀ a, Says (q a) (· = "")) : Says (m >>= q) Unsigned :=
  h.bind hq fun text _ htext hnone => by rwa [hnone,String.append_empty]

end Says

theorem Grows.ofExcept (found : Except DemangleError α) : Grows (ofExcept found) := by
  intro s hs a t ht
  obtain ⟨_,rfl⟩ := ofExcept_ok ht
  exact .refl t

theorem last_grows : Grows last := by
  rintro s hs _ t ⟨⟩
  exact .refl s

end

section
variable {config : Config} {n : Nat} {place : Place}

theorem templateArgs_unsigned (arguments : List Node) :
    Says (templateArgs config (Halves.levels config n) place arguments) Unsigned := by
  refine .ending (Says.write _).grows fun _ =>
    .ending (Halves.printList_grows n place arguments) fun _ => ?_
  refine .ending last_grows fun c => ?_
  have hclosing : Says (write ">") Unsigned := .unsigned (by decide)
  cases hapart : config.closingAngleSpace && c == some '>' with
  | true => exact .ending (Says.write " ").grows fun _ => hclosing
  | false => exact hclosing

theorem optionalTemplateArgs_unsigned (arguments : List Node) {text : String} :
    Says (do
      write text
      optionalTemplateArgs config (Halves.levels config n) place (some arguments)) Unsigned :=
  .ending (Says.write _).grows fun _ => templateArgs_unsigned arguments

theorem leftOnly_of_nameEndsUnsigned {node : Node} (h : nameEndsUnsigned node = true) :
    LeftOnly node := by
  cases node <;> trivial

theorem expandedText_unsigned (name : StandardName) (closingAngleSpace : Bool) :
    Unsigned (name.expandedText closingAngleSpace) := by
  cases name <;> cases closingAngleSpace <;> exact unsigned_chars rfl (by decide)

theorem standardName_unsigned (name : StandardName) : Unsigned name.text := by
  cases name <;> exact unsigned_chars rfl (by decide)

theorem name_unsigned {node : Node} (h : nameEndsUnsigned node = true) :
    Says ((Halves.levels config n).left place node) Unsigned ∧
      Says ((Halves.levels config n).print place node) Unsigned := by
  -- The right half of a name is empty, so that what is printed ends as the left half does.
  have printed : ∀ {n : Nat} {place : Place} {node : Node}, nameEndsUnsigned node = true →
      Says ((Halves.levels config n).left place node) Unsigned →
      Says ((Halves.levels config n).print place node) Unsigned := by
    intro n place node h hleft
    have hright : OneSided place.packIndex place.scopes node :=
      .leftOnly (leftOnly_of_nameEndsUnsigned h)
    exact hleft.ended fun _ => .asks (Halves.right_grows n place node) (hright.right n)
  suffices hleft :
    Says ((Halves.levels config n).left place node) Unsigned from ⟨hleft,printed h hleft⟩
  induction n generalizing place node with
  | zero => exact .exhausted
  | succ n ih =>
    refine .ending step_puts.grows fun _ => ?_
    cases node with
    | sourceName name => exact .unsigned h
    | nestedName scope name =>
      refine .ending (Halves.print_grows n place scope) fun _ =>
        .ending (Says.write _).grows fun _ => ?_
      exact printed h (ih h)
    | templateName name arguments =>
      exact .ending (Halves.print_grows n place name) fun _ => templateArgs_unsigned arguments
    | unnamedTypeName number => exact .unsigned (unsigned_append (by decide))
    | closureTypeName parameters number =>
      refine .ending (Says.write _).grows fun _ =>
        .ending (Halves.printList_grows n _ parameters) fun _ => ?_
      exact .unsigned (unsigned_append (by decide))
    | specialSubstitution name expanded =>
      refine .unsigned ?_
      cases expanded with
      | true => exact expandedText_unsigned name config.closingAngleSpace
      | false => exact standardName_unsigned name
    | _ => cases h

theorem indirectionLeft_unsigned (target : Node) {sign : String} (hsign : Unsigned sign) :
    Says (indirectionLeft (Halves.levels config n) place target sign) Unsigned := by
  refine .ending (Halves.left_grows n place target) fun _ => .ending (.ofExcept _) fun _ => ?_
  refine .writeIf_ending (.ending (.ofExcept _) fun _ => ?_)
  exact .writeIf_ending (.unsigned hsign)

theorem cvText_unsigned {cv : CvQualifiers} (h : cv.isEmpty = false) : Unsigned (cvText cv) := by
  obtain ⟨restrict,volatile,const⟩ := cv
  have hrestrict : Unsigned " restrict" := unsigned_chars rfl (by decide)
  have hvolatile : Unsigned " volatile" := unsigned_chars rfl (by decide)
  have hconst : Unsigned " const" := unsigned_chars rfl (by decide)
  unfold cvText
  match restrict, volatile, const, h with
  | true, _, _, _ => exact unsigned_append (unsigned_append hrestrict)
  | false, true, _, _ =>
    simp only [if_true,Bool.false_eq_true,if_false,String.append_empty]
    exact unsigned_append hvolatile
  | false, false, true, _ =>
    simp only [if_true,Bool.false_eq_true,if_false,String.append_empty]
    exact hconst

theorem dimension_grows (bound : Dimension Node) :
    Grows (dimension (Halves.levels config n) place bound) := by
  cases bound with
  | size size => exact (Says.write _).grows
  | expression e => exact Halves.print_grows n place e

theorem left_unsigned {node : Node} (h : endsUnsigned node = true) :
    Says ((Halves.levels config n).left place node) Unsigned := by
  induction n generalizing node with
  | zero => exact .exhausted
  | succ n ih =>
    by_cases hname : nameEndsUnsigned node = true
    · exact (name_unsigned hname).1
    refine .ending step_puts.grows fun _ => ?_
    have hleft : ∀ node, Grows ((Halves.levels config n).left place node) :=
      Halves.left_grows n place
    have hprint : ∀ node, Grows ((Halves.levels config n).print place node) :=
      Halves.print_grows n place
    cases node with
    | builtinType type => exact .unsigned h
    | qualifiedType inner cv =>
      cases hcv : cv.isEmpty with
      | false =>
        exact .ending (hleft inner) fun _ => (cvQualifiers_puts cv).imp fun _ htext =>
          htext ▸ cvText_unsigned hcv
      | true =>
        have hinner : endsUnsigned inner = true := by simpa [endsUnsigned,hcv] using h
        rw [CvQualifiers.isEmpty_iff] at hcv
        exact (ih hinner).ended fun _ => hcv ▸ .pure ()
    | vendorExtendedType name arguments =>
      cases arguments with
      | none => exact .ended (.unsigned h) fun _ => .pure ()
      | some arguments => exact optionalTemplateArgs_unsigned arguments
    | vendorQualifiedType inner qualifier arguments =>
      refine .ending (hleft inner) fun _ => ?_
      cases arguments with
      | none => exact .ended (.unsigned h) fun _ => .pure ()
      | some arguments => exact optionalTemplateArgs_unsigned arguments
    | pointerType pointee => exact indirectionLeft_unsigned pointee (by decide)
    | pointerToMemberType classType memberType =>
      refine .ending (hleft memberType) fun _ => .ending (.ofExcept _) fun _ => ?_
      refine .ending (Says.write _).grows fun _ => .ending (hprint classType) fun _ => ?_
      exact .unsigned (by decide)
    | complexType inner => exact .ending (hleft inner) fun _ => .unsigned (by decide)
    | imaginaryType inner => exact .ending (hleft inner) fun _ => .unsigned (by decide)
    | vectorType element bound =>
      refine .ending (hprint element) fun _ => .ending (Says.write _).grows fun _ => ?_
      exact .ending (dimension_grows bound) fun _ => .unsigned (by decide)
    | decltypeType expression =>
      exact .ending (Says.write _).grows fun _ => .ending (hprint expression) fun _ =>
        .unsigned (by decide)
    | elaboratedType keyword name =>
      exact .ending (Says.write _).grows fun _ => (name_unsigned h).2
    | _ => exact absurd h hname

end

end MangledNames.Printing
