import MangledNames.Proofs.HexFloat.Digits
import MangledNames.Proofs.Printing.Sound
set_option autoImplicit false

/-!
Both halves of every sound node can be printed: no node that has no text of its own is ever met.
-/

namespace MangledNames.Printing

open Node

/-- Halves that break no promise for sound nodes. -/
structure Halves.Sound (h : Halves) : Prop where
  left : ∀ {place : Place} {node : Node}, SoundScopes place.scopes → node.Sound →
    Prints (h.left place node)
  right : ∀ {place : Place} {node : Node}, SoundScopes place.scopes → node.Sound →
    Prints (h.right place node)

section
variable {α : Type} {p : α → Prop} {c : Prop} [Decidable c] {text : String}
  {q : Unit → Printer α}

theorem write_then {m : Printer α} (hm : Prints m p) : Prints (write text >>= fun _ => m) p :=
  (write_prints text).first fun _ _ => hm

theorem writeIf_then (hq : Prints (q ()) p) :
    Prints (if c then write text >>= q else q ()) p :=
  Runs.ite (fun _ => write_then hq) fun _ => hq

theorem writeUnless_then (hq : Prints (q ()) p) :
    Prints (if c then q () else write text >>= q) p :=
  Runs.ite (fun _ => hq) fun _ => write_then hq

theorem writeIf_prints : Prints (if c then write text else pure ()) :=
  Runs.ite (fun _ => write_prints text) fun _ => Runs.pure trivial

theorem then_prints {m : Printer Unit} {n : Printer α} (hm : Prints m) (hn : Prints n p) :
    Prints (m >>= fun _ => n) p := hm.first fun _ _ => hn

theorem asked_then {β : Type} {found : Except DemangleError β} {q : β → Printer α}
    (hq : ∀ b, Prints (q b) p) : Prints (ofExcept found >>= q) p :=
  (ofExcept_prints (p := fun _ => True) fun _ _ => trivial).first fun b _ => hq b

end

theorem cvQualifiers_prints (cv : CvQualifiers) : Prints (cvQualifiers cv) := by
  unfold cvQualifiers
  exact writeIf_then (writeIf_then writeIf_prints)

theorem refQualifier_prints (ref : Option ReferenceKind) : Prints (refQualifier ref) := by
  cases ref with
  | none => exact Runs.pure trivial
  | some kind => exact write_prints _

theorem abiTags_prints (tags : List String) : Prints (abiTags tags) := by
  induction tags with
  | nil => exact Runs.pure trivial
  | cons tag tags ih => exact write_then ih

section
variable {h : Halves} (hh : h.Sound) {place : Place} (hp : SoundScopes place.scopes)
include hh hp

theorem print_prints {node : Node} (hn : node.Sound) : Prints (h.print place node) :=
  then_prints (hh.left hp hn) (hh.right hp hn)

theorem printList_prints {nodes : List Node} (hn : AllSound nodes) :
    Prints (h.printList place nodes) :=
  list_prints fun node hnode => print_prints hh hp (allSound_iff.mp hn node hnode)

theorem parenthesized_prints {node : Node} (hn : node.Sound) :
    Prints (h.parenthesized place node) :=
  write_then (then_prints (print_prints hh hp hn) (write_prints _))

theorem templateArgs_prints (config : Config) {arguments : List Node} (hn : AllSound arguments) :
    Prints (templateArgs config h place arguments) := by
  unfold templateArgs
  refine write_then (then_prints (printList_prints hh hp hn) ?_)
  exact last_prints.first fun _ _ => writeIf_then (write_prints _)

theorem optionalTemplateArgs_prints (config : Config) {arguments : Option (List Node)}
    (hn : ListSound arguments) : Prints (optionalTemplateArgs config h place arguments) := by
  cases arguments with
  | none => exact Runs.pure trivial
  | some arguments => exact templateArgs_prints hh hp config hn

theorem indirectionLeft_prints {target : Node} (hn : target.Sound) (sign : String) :
    Prints (indirectionLeft h place target sign) :=
  then_prints (hh.left hp hn) (asked_then fun _ => writeIf_then (asked_then fun _ =>
    writeIf_then (write_prints _)))

theorem indirectionRight_prints {target : Node} (hn : target.Sound) :
    Prints (indirectionRight h place target) :=
  asked_then fun _ => writeIf_then (hh.right hp hn)

theorem exceptionSpec_prints {spec : Option (ExceptionSpec Node)} (hs : SpecSound spec) :
    Prints (exceptionSpec h place spec) := by
  unfold exceptionSpec
  split
  · exact Runs.pure trivial
  · exact write_prints _
  · exact write_then (parenthesized_prints hh hp hs)
  · exact write_then (then_prints (printList_prints hh hp hs) (write_prints _))

theorem functionTypeRight_prints {f : FunctionType Node} (hf : (functionType f).Sound) :
    Prints (functionTypeRight h place f) := by
  obtain ⟨hreturn,hparameters,hspec⟩ := hf
  unfold functionTypeRight
  refine write_then (then_prints (printList_prints hh hp hparameters) (write_then
    (then_prints (hh.right hp hreturn) (then_prints (cvQualifiers_prints _) (then_prints
      (refQualifier_prints _) (then_prints (exceptionSpec_prints hh hp hspec) ?_))))))
  exact writeIf_prints

omit hh in
theorem templateParam_prints {half : Place → Node → Printer Unit}
    (hhalf : ∀ {place : Place} {node : Node}, SoundScopes place.scopes → node.Sound →
      Prints (half place node)) {auto : Nat → Printer Unit} (hauto : ∀ index, Prints (auto index))
    (index : Nat) : Prints (templateParam half auto place index) := by
  unfold templateParam
  refine Runs.ite (fun _ => hauto index) fun _ => ?_
  refine (ofExcept_prints (p := fun found : Node × Scopes =>
    found.1.Sound ∧ SoundScopes found.2) fun found hfound => resolve_sound hp hfound).first ?_
  rintro ⟨argument,scopes⟩ ⟨hargument,hscopes⟩
  exact hhalf hscopes hargument

theorem packElements_prints {pattern : Node} (hn : pattern.Sound) (count index : Nat) :
    Prints (packElements h place pattern count index) := by
  induction count generalizing index with
  | zero => exact Runs.pure trivial
  | succ count ih =>
    have hp' : SoundScopes { place with packIndex := some index }.scopes := hp
    unfold packElements
    exact writeIf_then (then_prints (print_prints hh hp' hn) (ih (index + 1)))

theorem packExpansion_prints (config : Config) {pattern : Node} (hn : pattern.Sound) :
    Prints (packExpansion config h place pattern) := by
  unfold packExpansion
  refine (packSize_prints config place pattern).first fun size _ => ?_
  cases size with
  | none => exact then_prints (parenthesized_prints hh hp hn) (write_prints _)
  | some size => exact packElements_prints hh hp hn size 0

theorem function_prints (config : Config) {name : Node} (hn : name.Sound)
    {signature : Signature Node} (hs : SignatureSound (some signature)) :
    Prints (function config h place name signature) := by
  obtain ⟨hreturn,hparameters⟩ := hs
  have qualifiers : Prints (do
      cvQualifiers signature.cv
      refQualifier signature.ref) := then_prints (cvQualifiers_prints _) (refQualifier_prints _)
  have named : ∀ {q : Unit → Printer Unit}, Prints (q ()) → Prints (do
      h.print place name
      if config.omitParameterList then q ()
      else do
        write "("
        h.printList place signature.parameters
        write ")" >>= q) := fun hq => then_prints (print_prints hh hp hn) (Runs.ite (fun _ => hq)
    fun _ => write_then (then_prints (printList_prints hh hp hparameters) (write_then hq)))
  have hshown :
      Node.OptionSound (if config.omitReturnType then none else signature.returnType) := by
    split
    · exact trivial
    · exact hreturn
  unfold function
  generalize (if config.omitReturnType then none else signature.returnType) = returnType at hshown ⊢
  cases returnType with
  | none => exact named (Runs.ite (fun _ => Runs.pure trivial) fun _ => qualifiers)
  | some type =>
    have hshown : type.Sound := hshown
    refine then_prints (hh.left hp hshown) ((hasRightSide_prints config place type).first
      fun _ _ => writeUnless_then (named ?_))
    exact then_prints (hh.right hp hshown)
      (Runs.ite (fun _ => Runs.pure trivial) fun _ => qualifiers)

omit hh in
theorem enter_sound {name : Node} (hn : name.Sound) :
    SoundScopes (place.enter (templateArgsOf name)).scopes := by
  cases hfound : templateArgsOf name with
  | none => exact hp
  | some arguments => exact soundScopes_cons.mpr ⟨templateArgsOf_sound hn hfound,hp⟩

theorem encoding_prints (config : Config) {e : Encoding Node} (he : (Node.encoding e).Sound) :
    Prints (encoding config h place e) := by
  obtain ⟨name,signature⟩ := e
  obtain ⟨hname,hsignature⟩ := he
  have hp' := enter_sound hp hname
  cases signature with
  | none => exact print_prints hh hp' hname
  | some signature => exact function_prints hh hp' config hname hsignature

theorem closure_prints {parameters : List Node} (hn : AllSound parameters) (number : Nat) :
    Prints (closure h place parameters number) := by
  have hp' : SoundScopes { place with inClosure := true }.scopes := hp
  exact write_then (then_prints (printList_prints hh hp' hn) (write_prints _))

theorem binaryExpression_prints (operator : Operator) {left right : Node} (hl : left.Sound)
    (hr : right.Sound) : Prints (binaryExpression h place operator left right) := by
  unfold binaryExpression
  refine Runs.ite (fun _ => ?_) fun _ => ?_
  · exact then_prints (parenthesized_prints hh hp hl) (write_then (then_prints
      (print_prints hh hp hr) (write_prints _)))
  · exact writeIf_then (then_prints (parenthesized_prints hh hp hl) (write_then (then_prints
      (parenthesized_prints hh hp hr) writeIf_prints)))

theorem newType_prints {type : Node} {initializer : Option (List Node)} (htype : type.Sound)
    (hinitializer : ListSound initializer) :
    Prints (do
      write " "
      h.print place type
      if let some initializer := initializer then
        write "("
        h.printList place initializer
        write ")") := by
  refine write_then (then_prints (print_prints hh hp htype) ?_)
  cases initializer with
  | none => exact Runs.pure trivial
  | some initializer =>
    exact write_then (then_prints (printList_prints hh hp hinitializer) (write_prints _))

theorem newExpression_prints {placement : List Node} {type : Node}
    {initializer : Option (List Node)} {array globalScope : Bool}
    (hn : (Node.newExpression placement type initializer array globalScope).Sound) :
    Prints (newExpression h place placement type initializer array globalScope) := by
  obtain ⟨hplacement,htype,hinitializer⟩ := hn
  have typed := newType_prints hh hp htype hinitializer
  unfold newExpression
  exact writeIf_then (write_then (Runs.ite (fun _ => typed) fun _ => write_then (then_prints
    (printList_prints hh hp hplacement) (write_then typed))))

theorem integerLiteral_prints (config : Config) {type : Node} (hn : type.Sound) (value : String) :
    Prints (integerLiteral config h place type value) := by
  unfold integerLiteral
  split
  · exact write_prints _
  · exact then_prints (parenthesized_prints hh hp hn) (write_prints _)

theorem floatLiteral_prints (config : Config) {type : Node} (hn : type.Sound) {value : String}
    (hvalue : Grammar.isFloatValue value.toList = true) :
    Prints (floatLiteral config h place type value) := by
  unfold floatLiteral
  split
  · rename_i hformat
    rw [HexFloat.bitsOf?_eq (digits_of_numberFormat? hvalue hformat)]
    exact write_prints _
  · exact then_prints (parenthesized_prints hh hp hn) (write_prints _)

theorem dimension_prints {bound : Dimension Node} (hn : DimensionSound bound) :
    Prints (dimension h place bound) := by
  cases bound with
  | size n => exact write_prints _
  | expression e => exact print_prints hh hp hn

theorem leftHalf_prints (config : Config) {node : Node} (hn : node.Sound) :
    Prints (leftHalf config h place node) := by
  have printed : ∀ {node : Node}, node.Sound → Prints (h.print place node) :=
    fun hn => print_prints hh hp hn
  have listed : ∀ {nodes : List Node}, AllSound nodes → Prints (h.printList place nodes) :=
    fun hn => printList_prints hh hp hn
  have parenthesized : ∀ {node : Node}, node.Sound → Prints (h.parenthesized place node) :=
    fun hn => parenthesized_prints hh hp hn
  unfold leftHalf
  cases node with
  | sourceName value => exact write_prints _
  | operatorName operator => exact write_prints _
  | conversionOperatorName type => exact write_then (printed hn)
  | literalOperatorName name => exact write_then (printed hn)
  | vendorOperatorName arity name => exact write_then (printed hn.2)
  | ctorDtorName kind name inheriting => exact writeIf_then (printed hn.2.1)
  | abiTaggedName name tags => exact then_prints (printed hn.2) (abiTags_prints tags)
  | unnamedTypeName number => exact write_prints _
  | closureTypeName parameters number => exact closure_prints hh hp hn.2 number
  | structuredBindingName names =>
    refine write_then (then_prints (listed (allSound_iff.mpr ?_)) (write_prints _))
    exact List.forall_mem_map.mpr hn.2
  | nestedName scope name => exact then_prints (printed hn.1) (write_then (printed hn.2))
  | templateName name arguments =>
    exact then_prints (printed hn.1) (templateArgs_prints hh hp config hn.2)
  | localName function entity =>
    obtain ⟨name,signature⟩ := function
    obtain ⟨hfunction,hentity⟩ := hn
    refine then_prints (printed hfunction) (write_then ?_)
    exact print_prints hh (enter_sound hp hfunction.1) hentity
  | stringLiteralName => exact write_prints _
  | specialSubstitution name expanded => exact write_prints _
  | unresolvedName name globalScope => exact writeIf_then (printed hn)
  | destructorName name => exact write_then (printed hn)
  | builtinType type => exact write_prints _
  | vendorExtendedType name arguments =>
    exact write_then (optionalTemplateArgs_prints hh hp config hn)
  | qualifiedType inner cv => exact then_prints (hh.left hp hn.2) (cvQualifiers_prints cv)
  | vendorQualifiedType inner qualifier arguments =>
    exact then_prints (hh.left hp hn.1) (write_then (optionalTemplateArgs_prints hh hp config hn.2))
  | pointerType pointee => exact indirectionLeft_prints hh hp (show pointee.Sound from hn) _
  | referenceType referent kind =>
    have hreferent : referent.Sound := hn
    exact (collapseIn_prints config _ hp kind hreferent).first fun reference hreference =>
      indirectionLeft_prints hh (show SoundScopes { place with scopes := reference.scopes }.scopes
        from hreference.scopes) hreference.referent _
  | complexType inner => exact then_prints (hh.left hp hn) (write_prints _)
  | imaginaryType inner => exact then_prints (hh.left hp hn) (write_prints _)
  | arrayType element bound =>
    cases bound with
    | none => exact hh.left hp hn
    | some bound => exact hh.left hp hn.1
  | pointerToMemberType classType memberType =>
    exact then_prints (hh.left hp hn.2) (asked_then fun _ => write_then (then_prints (printed hn.1)
      (write_prints _)))
  | functionType f =>
    exact then_prints (hh.left hp hn.1) ((hasRightSide_prints config place _).first fun _ _ =>
      Runs.ite (fun _ => Runs.pure trivial) fun _ => write_prints _)
  | exceptionSpec spec => exact hn.elim
  | templateParam index => exact templateParam_prints hp hh.left (fun _ => write_prints _) index
  | packExpansion pattern => exact packExpansion_prints hh hp config hn
  | decltypeType expression => exact write_then (then_prints (printed hn) (write_prints _))
  | vectorType element bound =>
    exact then_prints (printed hn.1) (write_then (then_prints (dimension_prints hh hp hn.2)
      (write_prints _)))
  | elaboratedType keyword name => exact write_then (printed hn)
  | templateArgs arguments => exact templateArgs_prints hh hp config hn
  | templateArgPack arguments => exact listed hn
  | integerLiteral type value => exact integerLiteral_prints hh hp config hn.2 value
  | floatLiteral type value => exact floatLiteral_prints hh hp config hn.2.2 hn.1
  | boolLiteral value => exact write_prints _
  | nullptrLiteral => exact write_prints _
  | stringLiteral type => exact write_then (then_prints (printed hn) (write_prints _))
  | externalName encoding => exact printed hn
  | functionParam number =>
    cases number with
    | none => exact write_prints _
    | some number => exact write_prints _
  | unaryExpression operator operand afterOperand =>
    refine Runs.ite (fun _ => ?_) fun _ => ?_
    · exact then_prints (parenthesized hn) (write_prints _)
    · exact write_then (parenthesized hn)
  | binaryExpression operator left right => exact binaryExpression_prints hh hp operator hn.1 hn.2
  | conditionalExpression condition whenTrue whenFalse =>
    exact then_prints (parenthesized hn.1) (write_then (then_prints (parenthesized hn.2.1)
      (write_then (parenthesized hn.2.2))))
  | callExpression callee arguments =>
    exact then_prints (printed hn.1) (write_then (then_prints (listed hn.2) (write_prints _)))
  | castExpression keyword type operand =>
    exact write_then (then_prints (printed hn.1) (write_then (parenthesized hn.2)))
  | conversionExpression type arguments =>
    exact then_prints (parenthesized hn.1) (write_then (then_prints (listed hn.2) (write_prints _)))
  | initListExpression type elements =>
    have braced : Prints (do
        write "\x7b"
        h.printList place elements
        write "\x7d") := write_then (then_prints (listed hn.2) (write_prints _))
    cases type with
    | none => exact braced
    | some type => exact then_prints (printed hn.1) braced
  | newExpression placement type initializer array globalScope =>
    exact newExpression_prints hh hp hn
  | deleteExpression operand array globalScope => exact writeIf_then (write_then (printed hn))
  | typeOperatorExpression operator type => exact write_then (write_then (parenthesized hn))
  | expressionOperatorExpression operator operand =>
    exact write_then (write_then (parenthesized hn))
  | sizeofPackExpression pattern => exact write_then (parenthesized hn)
  | memberExpression object access member =>
    exact then_prints (printed hn.1) (write_then (printed hn.2))
  | throwExpression operand =>
    cases operand with
    | none => exact write_then (Runs.pure trivial)
    | some operand => exact write_then (write_then (printed hn))
  | packExpansionExpression pattern => exact packExpansion_prints hh hp config hn
  | signature signature => exact hn.elim
  | encoding e =>
    have he := encoding_prints (e := e) hh hp config hn
    exact he
  | specialName kind target offsets => exact write_then (printed hn.2)
  | referenceTemporary name number => exact write_then (printed hn)
  | constructionVtable complete base =>
    refine write_then (then_prints (printed hn.2) ?_)
    exact write_then (printed hn.1)
  | mangledName encoding cloneSuffix =>
    cases cloneSuffix with
    | none => exact then_prints (printed hn) (Runs.pure trivial)
    | some suffix => exact then_prints (printed hn.2) (write_prints _)

theorem rightHalf_prints (config : Config) {node : Node} (hn : node.Sound) :
    Prints (rightHalf config h place node) := by
  unfold rightHalf
  split
  · exact hh.right hp hn.2
  · exact hh.right hp hn.1
  · exact indirectionRight_prints hh hp hn
  · rename_i referent kind
    have hreferent : referent.Sound := hn
    exact (collapseIn_prints config _ hp kind hreferent).first fun reference hreference =>
      indirectionRight_prints hh (show SoundScopes { place with scopes := reference.scopes }.scopes
        from hreference.scopes) hreference.referent
  · rename_i element bound
    refine last_prints.first fun _ _ => writeUnless_then (write_then ?_)
    cases bound with
    | none => exact write_then (hh.right hp hn)
    | some bound => exact then_prints (dimension_prints hh hp hn.2) (write_then (hh.right hp hn.1))
  · exact asked_then fun _ => writeIf_then (hh.right hp hn.2)
  · exact functionTypeRight_prints hh hp hn
  · exact templateParam_prints hp hh.right (fun _ => Runs.pure trivial) _
  · exact Runs.pure trivial

end

theorem Halves.next_sound (config : Config) {h : Halves} (hh : h.Sound) :
    (h.next config).Sound where
  left hp hn := (step_prints config).first fun _ _ => leftHalf_prints hh hp config hn
  right hp hn := (step_prints config).first fun _ _ => rightHalf_prints hh hp config hn

theorem Halves.exhausted_sound (config : Config) : (Halves.exhausted config).Sound where
  left _ _ := (step_prints config).first fun _ _ => fail_prints _
  right _ _ := (step_prints config).first fun _ _ => fail_prints _

/-- However many levels are left, printing keeps all promises. -/
theorem Halves.levels_sound (config : Config) (n : Nat) : (Halves.levels config n).Sound := by
  induction n with
  | zero => exact Halves.exhausted_sound config
  | succ n ih => exact Halves.next_sound config ih

end MangledNames.Printing
