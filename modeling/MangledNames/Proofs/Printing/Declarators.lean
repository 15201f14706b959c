import MangledNames.Proofs.Printing.BareTexts
import MangledNames.Proofs.Printing.Throughout
set_option autoImplicit false

/-!
Trees that are printed with brackets that match: names without brackets, and no complex types over
declarators. What is asked of types on the way is no text.
-/

namespace MangledNames

namespace Printing

/-- A name as it is printed: without brackets, but for the reserved one. -/
def PlainName (name : String) : Prop := Bare name.toList ∨ name = "(anonymous namespace)"

/-- The names that a node spells have no brackets. -/
def PlainNames : Node → Prop
  | .sourceName name | .literalOperatorName name | .vendorOperatorName _ name
  | .vendorExtendedType name _ | .vendorQualifiedType _ name _ => PlainName name
  | .structuredBindingName names | .abiTaggedName _ names => ∀ name ∈ names, PlainName name
  | _ => True

/-- What is known of a node that was read: its digits and suffixes have no marks, and an operator of
one operand takes only one. -/
def AsRead : Node → Prop
  | .builtinType (.floatN digits) | .integerLiteral _ digits | .floatLiteral _ digits
  | .mangledName _ (some digits) => Unmarked digits.toList
  | .unaryExpression operator _ _ => operator.kind = .prefixOp ∨ operator.kind = .postfixOp
  | _ => True

/-- Whether a pointer or reference to a type certainly needs no brackets. -/
def isPlainTarget (node : Node) : Bool :=
  match unqualified node with
  | .arrayType _ _ | .functionType _ | .templateParam _ => false
  | _ => true

/-- Whether the left half of a type certainly leaves no bracket open. -/
def isFlat : Node → Bool
  | .qualifiedType inner _ | .vendorQualifiedType inner _ _ | .arrayType inner _
  | .functionType ⟨inner, _, _, _, _, _, _⟩ => isFlat inner
  | .pointerType target | .referenceType target _ | .pointerToMemberType _ target =>
    isPlainTarget target && isFlat target
  | .templateParam _ => false
  | _ => true

/-- The right half of what complex and imaginary types are made of is not printed, so that
nothing may be left open for it. -/
def FlatComplex : Node → Prop
  | .complexType inner | .imaginaryType inner => isFlat inner = true
  | _ => True

/-- Types that declare something between two halves, and those that print the left half of one. -/
def HasHalves : Node → Prop
  | .qualifiedType _ _ | .vendorQualifiedType _ _ _ | .pointerType _ | .referenceType _ _
  | .complexType _ | .imaginaryType _ | .arrayType _ _ | .pointerToMemberType _ _ | .functionType _
  | .templateParam _ => True
  | _ => False

structure Tidy (node : Node) : Prop where
  names : PlainNames node
  asRead : AsRead node
  complex : FlatComplex node

abbrev TidyScopes : Scopes → Prop := ScopesThroughout Tidy

theorem tidy_param (index : Nat) : (Node.templateParam index).Throughout Tidy :=
  .of_children ⟨trivial,trivial,trivial⟩ nofun

theorem needsParentheses_plain {node : Node} (h : isPlainTarget node = true) (place : Place) :
    needsParentheses place node = .ok false := by
  have hparam : ∀ index, unqualified node ≠ .templateParam index := by
    intro index hindex
    simp [isPlainTarget,hindex] at h
  have hkind : isArray (unqualified node) = false ∧ isFunction (unqualified node) = false := by
    unfold isPlainTarget at h
    split at h
    · cases h
    · cases h
    · cases h
    · rename_i harray hfunction _
      constructor
      · unfold isArray
        split
        · exact absurd ‹_› (harray _ _)
        · rfl
      · unfold isFunction
        split
        · exact absurd ‹_› (hfunction _)
        · rfl
  unfold needsParentheses hasArray hasFunction
  rw [seenThrough_eq hparam]
  simp [hkind]
  rfl

section
variable (config : Config)

theorem hasRightSideWithin_asks {parameter : Nat → Printer Bool}
    (h : ∀ index, Asks (parameter index)) (node : Node) :
    Asks (hasRightSideWithin config parameter node) := by
  fun_induction hasRightSideWithin config parameter node with
  | case1 inner cv ih => exact ih
  | case2 inner qualifier arguments ih => exact ih
  | case3 index => exact h index
  | case4 => exact .pure true
  | case5 => exact .pure true
  | case6 inner ih => exact (step_asks config).then fun _ => ih
  | case7 inner kind ih => exact (step_asks config).then fun _ => ih
  | case8 classType inner ih => exact (step_asks config).then fun _ => ih
  | case9 => exact .pure false

theorem hasRightSide_asks (place : Place) (node : Node) :
    Asks (hasRightSide config place node) := by
  have within : ∀ (scopes : Scopes) (node : Node),
      Asks (hasRightSideIn config place.packIndex scopes node) := by
    intro scopes
    induction scopes with
    | nil => exact fun node => hasRightSideWithin_asks config (fun _ => .pure false) node
    | cons arguments outer ih =>
      refine fun node => hasRightSideWithin_asks config (fun index => ?_) node
      split
      · exact .pure false
      · exact (asks_ofExcept _).then fun node => ih node
  exact (step_asks config).then fun _ => within _ _

theorem packSize_asks (place : Place) (pattern : Node) : Asks (packSize config place pattern) := by
  have among : ∀ nodes, Asks (packSizeAmong config place nodes) := by
    intro nodes
    fun_induction packSizeAmong config place nodes with
    | case1 => exact .pure none
    | case2 node others ih =>
      refine (step_asks config).then fun _ => ?_
      revert ih
      split
      · intro ih
        split
        · exact .pure _
        · exact ih
      · exact id
      · exact id
      · exact id
  exact among _

/-- A reference to something tidy, and to something flat if that is what was asked for. -/
structure Collapsed.Tidy (flat : Bool) (c : Collapsed) : Prop where
  referent : c.referent.Throughout Printing.Tidy
  scopes : TidyScopes c.scopes
  flat : flat = true → isPlainTarget c.referent = true ∧ isFlat c.referent = true

theorem collapseWithin_answers {scopes : Scopes} (hscopes : TidyScopes scopes)
    {parameter : ReferenceKind → Nat → Printer Collapsed}
    (h : ∀ kind index, ∃ c, Answers (parameter kind index) c ∧ c.Tidy false) (kind : ReferenceKind)
    {node : Node} (hnode : node.Throughout Tidy) :
    ∃ c, Answers (collapseWithin config scopes parameter kind node) c ∧
      c.Tidy (isPlainTarget node && isFlat node) := by
  fun_induction collapseWithin config scopes parameter kind node with
  | case1 kind referent inner ih =>
    obtain ⟨c,hc,htidy⟩ := ih (hnode.printed (.head _))
    refine ⟨c,(step_answers config).then hc,htidy.referent,htidy.scopes,fun hflat => htidy.flat ?_⟩
    simpa [isFlat,isPlainTarget,unqualified] using hflat
  | case2 kind index =>
    obtain ⟨c,hc,htidy⟩ := h kind index
    exact ⟨c,(step_answers config).then hc,htidy.referent,htidy.scopes,by simp [isFlat]⟩
  | case3 kind node =>
    exact ⟨_,(step_answers config).then (.pure _),hnode,hscopes,fun hflat => by simpa using hflat⟩

theorem collapseArgument_answers (packIndex : Option Nat) {outer : Scopes} (kind : ReferenceKind)
    {found : Node} {stay : Collapsed}
    (hfound : ∀ referent inner, found = .referenceType referent inner →
      ∃ c, Answers (collapseIn config packIndex outer kind found) c ∧
        c.Tidy (isPlainTarget found && isFlat found))
    (hstay : stay.Tidy false) :
    ∃ c, Answers (match found with
      | .referenceType referent inner =>
        collapseIn config packIndex outer kind (.referenceType referent inner)
      | _ => return stay) c ∧ c.Tidy false := by
  split
  · obtain ⟨c,hc,hcollapsed⟩ := hfound _ _ rfl
    exact ⟨c,hc,hcollapsed.referent,hcollapsed.scopes,nofun⟩
  · exact ⟨_,.pure _,hstay⟩

theorem collapseIn_answers (packIndex : Option Nat) {scopes : Scopes} (hscopes : TidyScopes scopes)
    (kind : ReferenceKind) {node : Node} (hnode : node.Throughout Tidy) :
    ∃ c, Answers (collapseIn config packIndex scopes kind node) c ∧
      c.Tidy (isPlainTarget node && isFlat node) := by
  have stays : ∀ (kind : ReferenceKind) (index : Nat) {scopes : Scopes}, TidyScopes scopes →
      Collapsed.Tidy false ⟨kind,.templateParam index,scopes⟩ := fun kind index _ hscopes =>
    ⟨tidy_param index,hscopes,nofun⟩
  -- An argument is looked up in the scope outside its own list, so the scopes carry the recursion.
  induction scopes generalizing kind node with
  | nil =>
    exact collapseWithin_answers config hscopes (fun kind index =>
      ⟨_,.pure _,stays kind index hscopes⟩) kind hnode
  | cons arguments outer ih =>
    have houter := scopesThroughout_cons.mp hscopes
    refine collapseWithin_answers config hscopes (fun kind index => ?_) kind hnode
    split
    · exact ⟨_,.pure _,stays kind index hscopes⟩
    · rename_i argument hargument
      cases helement : element packIndex index argument with
      | error error => exact ⟨_,nofun,stays kind index hscopes⟩
      | ok found =>
        have htidy := element_throughout (houter.1 _ (List.mem_of_getElem? hargument)) helement
        obtain ⟨c,hc,hcollapsed⟩ := collapseArgument_answers config packIndex kind
          (fun _ _ _ => ih houter.2 kind htidy) (stays kind index hscopes)
        exact ⟨c,(Answers.pure found).then hc,hcollapsed⟩

end

end Printing

end MangledNames
