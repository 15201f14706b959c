import MangledNames.Proofs.Node.Parts
import MangledNames.Proofs.Printing.Parallel
set_option autoImplicit false

/-!
Both halves of every node come out alike under configurations that agree.
-/

namespace MangledNames.Printing

open Likeness

/-- Both halves of two nodes come out alike, each at its place. -/
structure Halves.Alike (L : Likeness) (h h' : Halves) (place place' : Place)
    (node node' : Node) : Prop where
  left : L.Alike (h.left place node) (h'.left place' node')
  right : L.Alike (h.right place node) (h'.right place' node')

/-- Nodes alike of which also the same is asked before a declarator, with the same answers. -/
structure Halves.Fills (L : Likeness) (h h' : Halves) (place place' : Place)
    (node node' : Node) : Prop extends h.Alike L h' place place' node node' where
  hasArray : L.Alike (ofExcept (hasArray place node)) (ofExcept (hasArray place' node'))
  needsParentheses :
    L.Alike (ofExcept (needsParentheses place node)) (ofExcept (needsParentheses place' node'))

/-- The second node can stand wherever the first stands, also as what a function returns and what a
reference refers to. -/
structure Halves.Stands (L : Likeness) (config config' : Config) (h h' : Halves)
    (place place' : Place) (node node' : Node) : Prop
    extends h.Fills L h' place place' node node' where
  hasRightSide : L.Alike (hasRightSide config place node) (hasRightSide config' place' node')
  collapse : ∀ kind, L.Holds
    (fun found found' => found.kind = found'.kind ∧
      h.Fills L h' { place with scopes := found.scopes } { place' with scopes := found'.scopes }
        found.referent found'.referent)
    (collapse config place node kind) (collapse config' place' node' kind)

section
variable {L : Likeness} {config config' : Config} {h h' : Halves}
  {place place' : Place} {node node' : Node} {nodes nodes' : List Node}

theorem Halves.Alike.print (hn : h.Alike L h' place place' node node') :
    L.Alike (h.print place node) (h'.print place' node') :=
  Alike.bind hn.left fun _ => hn.right

variable (P : Parallel L config config')
include P

theorem then_write_alike {m m' : Printer Unit} (hm : L.Alike m m') (text : String) :
    L.Alike (m >>= fun _ => write text) (m' >>= fun _ => write text) :=
  hm.bind fun _ => P.write text

theorem printList_alike (hn : List.Forall₂ (h.Alike L h' place place') nodes nodes') :
    L.Alike (h.printList place nodes) (h'.printList place' nodes') :=
  P.list (hn.imp fun _ _ hab => hab.print)

theorem parenthesized_alike (hn : h.Alike L h' place place' node node') :
    L.Alike (h.parenthesized place node) (h'.parenthesized place' node') :=
  write_then_alike P _ (then_write_alike P hn.print _)

theorem templateArgs_alike (hn : List.Forall₂ (h.Alike L h' place place') nodes nodes') :
    L.Alike (templateArgs config h place nodes) (templateArgs config' h' place' nodes') :=
  write_then_alike P _ ((printList_alike P hn).bind fun _ => P.closing)

theorem optionalTemplateArgs_alike {arguments arguments' : Option (List Node)}
    (hn : Option.Rel (List.Forall₂ (h.Alike L h' place place')) arguments arguments') :
    L.Alike (optionalTemplateArgs config h place arguments)
      (optionalTemplateArgs config' h' place' arguments') := by
  cases hn with
  | none => exact Holds.pure rfl
  | some hn => exact templateArgs_alike P hn

theorem indirectionLeft_alike (hn : h.Fills L h' place place' node node') (sign : String) :
    L.Alike (indirectionLeft h place node sign) (indirectionLeft h' place' node' sign) := by
  refine hn.left.bind fun _ => hn.hasArray.bind fun array => ?_
  refine writeIf_then_alike P _ _ (hn.needsParentheses.bind fun needs => ?_)
  exact writeIf_then_alike P _ _ (P.write sign)

theorem indirectionRight_alike (hn : h.Fills L h' place place' node node') :
    L.Alike (indirectionRight h place node) (indirectionRight h' place' node') := by
  exact hn.needsParentheses.bind fun needs => writeIf_then_alike P _ _ hn.right

theorem closure_alike {parameters parameters' : List Node}
    (hn : List.Forall₂ (h.Alike L h' { place with inClosure := true }
      { place' with inClosure := true }) parameters parameters') (number : Nat) :
    L.Alike (closure h place parameters number) (closure h' place' parameters' number) :=
  write_then_alike P _ (then_write_alike P (printList_alike P hn) _)

theorem binaryExpression_alike (operator : Operator) {right right' : Node}
    (hl : h.Alike L h' place place' node node') (hr : h.Alike L h' place place' right right') :
    L.Alike (binaryExpression h place operator node right)
      (binaryExpression h' place' operator node' right') := by
  have hleft := parenthesized_alike P hl
  unfold binaryExpression
  refine Holds.ite (fun _ => ?_) fun _ => writeIf_then_alike P _ _ ?_
  · exact hleft.bind fun _ => write_then_alike P _ (then_write_alike P hr.print _)
  · refine hleft.bind fun _ => write_then_alike P _ ?_
    exact (parenthesized_alike P hr).bind fun _ => writeIf_alike P _ _

theorem newType_alike {type type' : Node} {initializer initializer' : Option (List Node)}
    (htype : h.Alike L h' place place' type type')
    (hinitializer : Option.Rel (List.Forall₂ (h.Alike L h' place place')) initializer
      initializer') :
    L.Alike
      (do
        write " "
        h.print place type
        if let some initializer := initializer then
          write "("
          h.printList place initializer
          write ")")
      (do
        write " "
        h'.print place' type'
        if let some initializer := initializer' then
          write "("
          h'.printList place' initializer
          write ")") := by
  refine write_then_alike P _ (htype.print.bind fun _ => ?_)
  cases hinitializer with
  | none => exact Holds.pure rfl
  | some hn => exact write_then_alike P _ (then_write_alike P (printList_alike P hn) _)

theorem newExpression_alike {placement placement' : List Node} {type type' : Node}
    {initializer initializer' : Option (List Node)} (array globalScope : Bool)
    (hplacement : List.Forall₂ (h.Alike L h' place place') placement placement')
    (htype : h.Alike L h' place place' type type')
    (hinitializer : Option.Rel (List.Forall₂ (h.Alike L h' place place')) initializer
      initializer') :
    L.Alike (newExpression h place placement type initializer array globalScope)
      (newExpression h' place' placement' type' initializer' array globalScope) := by
  have hempty : placement.isEmpty = placement'.isEmpty := by
    cases hplacement <;> rfl
  have typed := newType_alike P htype hinitializer
  unfold newExpression
  rw [hempty]
  refine writeIf_then_alike P _ _ (write_then_alike P _ (Holds.ite (fun _ => typed) fun _ => ?_))
  exact write_then_alike P _ ((printList_alike P hplacement).bind fun _ =>
    write_then_alike P _ typed)

theorem integerLiteral_alike {type type' : Node} (hn : h.Alike L h' place place' type type')
    (hsuffix : integerSuffix? type = integerSuffix? type') (value : String) :
    L.Alike (integerLiteral config h place type value)
      (integerLiteral config' h' place' type' value) := by
  unfold integerLiteral
  rw [hsuffix]
  cases integerSuffix? type' with
  | none => exact then_write_alike P (parenthesized_alike P hn) _
  | some suffix => exact P.suffixed value suffix

theorem floatLiteral_alike {type type' : Node} (hn : h.Alike L h' place place' type type')
    {value : String} (hformat : numberFormat? type value = numberFormat? type' value) :
    L.Alike (floatLiteral config h place type value)
      (floatLiteral config' h' place' type' value) := by
  unfold floatLiteral
  rw [hformat]
  cases numberFormat? type' value with
  | none => exact then_write_alike P (parenthesized_alike P hn) _
  | some format =>
    obtain ⟨format,suffix⟩ := format
    cases HexFloat.bitsOf? value.toList with
    | none =>
      simp only
      exact P.broken _ _
    | some bits =>
      simp only
      have hcased := P.suffixed "" (String.ofList (HexFloat.text format bits) ++ suffix)
      rwa [String.empty_append,String.empty_append] at hcased

/-- The parts of an exception specification come out alike. -/
inductive SpecAlike (L : Likeness) (h h' : Halves) (place place' : Place) :
    Option (ExceptionSpec Node) → Option (ExceptionSpec Node) → Prop
  | none : SpecAlike L h h' place place' none none
  | noexcept : SpecAlike L h h' place place' (some (.noexcept none)) (some (.noexcept none))
  | condition {node node' : Node} : h.Alike L h' place place' node node' →
    SpecAlike L h h' place place' (some (.noexcept (some node))) (some (.noexcept (some node')))
  | throwing {nodes nodes' : List Node} :
    List.Forall₂ (h.Alike L h' place place') nodes nodes' →
    SpecAlike L h h' place place' (some (.throwing nodes)) (some (.throwing nodes'))

theorem exceptionSpec_alike {spec spec' : Option (ExceptionSpec Node)}
    (hs : SpecAlike L h h' place place' spec spec') :
    L.Alike (exceptionSpec h place spec) (exceptionSpec h' place' spec') := by
  cases hs with
  | none => exact Holds.pure rfl
  | noexcept => exact P.write _
  | condition hn => exact write_then_alike P _ (parenthesized_alike P hn)
  | throwing hn => exact write_then_alike P _ (then_write_alike P (printList_alike P hn) _)

/-- Function types of which the parts come out alike. -/
structure FunctionAlike (L : Likeness) (h h' : Halves) (place place' : Place)
    (f f' : FunctionType Node) : Prop where
  returnType : h.Alike L h' place place' f.returnType f'.returnType
  parameters : List.Forall₂ (h.Alike L h' place place') f.parameters f'.parameters
  exceptionSpec : SpecAlike L h h' place place' f.exceptionSpec f'.exceptionSpec
  cv : f.cv = f'.cv
  ref : f.ref = f'.ref
  transactionSafe : f.transactionSafe = f'.transactionSafe

theorem functionTypeRight_alike {f f' : FunctionType Node}
    (hf : FunctionAlike L h h' place place' f f') :
    L.Alike (functionTypeRight h place f) (functionTypeRight h' place' f') := by
  unfold functionTypeRight
  rw [hf.cv,hf.ref,hf.transactionSafe]
  refine write_then_alike P _ ((printList_alike P hf.parameters).bind fun _ => ?_)
  refine write_then_alike P _ (hf.returnType.right.bind fun _ => ?_)
  refine (cvQualifiers_alike P _).bind fun _ => (refQualifier_alike P _).bind fun _ => ?_
  exact (exceptionSpec_alike P hf.exceptionSpec).bind fun _ => writeIf_alike P _ _

inductive DimensionAlike (L : Likeness) (h h' : Halves) (place place' : Place) :
    Dimension Node → Dimension Node → Prop
  | size (n : Nat) : DimensionAlike L h h' place place' (.size n) (.size n)
  | expression {node node' : Node} : h.Alike L h' place place' node node' →
    DimensionAlike L h h' place place' (.expression node) (.expression node')

theorem dimension_alike {bound bound' : Dimension Node}
    (hn : DimensionAlike L h h' place place' bound bound') :
    L.Alike (dimension h place bound) (dimension h' place' bound') := by
  cases hn with
  | size n => exact P.write _
  | expression hn => exact hn.print

/-- An expansion whose pattern comes alike, as it stands and for each element of its packs. -/
theorem packExpansion_alike {pattern pattern' : Node}
    (hsize : L.Alike (packSize config place pattern) (packSize config' place' pattern'))
    (hn : h.Alike L h' place place' pattern pattern')
    (helements : ∀ i, h.Alike L h' { place with packIndex := some i }
      { place' with packIndex := some i } pattern pattern') :
    L.Alike (packExpansion config h place pattern) (packExpansion config' h' place' pattern') := by
  have elements : ∀ count index, L.Alike (packElements h place pattern count index)
      (packElements h' place' pattern' count index) := by
    intro count
    induction count with
    | zero => exact fun _ => Holds.pure rfl
    | succ count ih =>
      intro index
      unfold packElements
      refine writeIf_then_alike P _ _ ?_
      exact (helements index).print.bind fun _ => ih (index + 1)
  refine hsize.bind fun size => ?_
  cases size with
  | none => exact then_write_alike P (parenthesized_alike P hn) _
  | some size => exact elements size 0

/-- What is left out of one text is left out of both, so nothing is asked of it. -/
structure SignatureAlike (L : Likeness) (config config' : Config) (h h' : Halves)
    (place place' : Place) (s s' : Signature Node) : Prop where
  returnType : config.omitReturnType = false → Option.Rel (fun type type' =>
    h.Alike L h' place place' type type' ∧
    L.Alike (hasRightSide config place type) (hasRightSide config' place' type'))
    s.returnType s'.returnType
  parameters : config.omitParameterList = false →
    List.Forall₂ (h.Alike L h' place place') s.parameters s'.parameters
  cv : s.cv = s'.cv
  ref : s.ref = s'.ref

theorem function_alike {s s' : Signature Node}
    (homitReturn : config.omitReturnType = config'.omitReturnType)
    (homitParameters : config.omitParameterList = config'.omitParameterList)
    (hn : h.Alike L h' place place' node node')
    (hs : SignatureAlike L config config' h h' place place' s s') :
    L.Alike (function config h place node s) (function config' h' place' node' s') := by
  have shown : Option.Rel (fun type type' => h.Alike L h' place place' type type' ∧
      L.Alike (hasRightSide config place type) (hasRightSide config' place' type'))
      (if config.omitReturnType then none else s.returnType)
      (if config.omitReturnType then none else s'.returnType) := by
    cases hreturn : config.omitReturnType with
    | true => exact .none
    | false => exact hs.returnType hreturn
  have qualifiers : L.Alike
      (do
        cvQualifiers s.cv
        refQualifier s.ref)
      (do
        cvQualifiers s'.cv
        refQualifier s'.ref) := by
    rw [hs.cv,hs.ref]
    exact (cvQualifiers_alike P _).bind fun _ => refQualifier_alike P _
  have named : ∀ {q q' : Unit → Printer Unit}, L.Alike (q ()) (q' ()) → L.Alike
      (do
        h.print place node
        if config.omitParameterList then q ()
        else do
          write "("
          h.printList place s.parameters
          write ")" >>= q)
      (do
        h'.print place' node'
        if config.omitParameterList then q' ()
        else do
          write "("
          h'.printList place' s'.parameters
          write ")" >>= q') := by
    refine fun hq => hn.print.bind fun _ => Holds.ite (fun _ => hq) fun homit => ?_
    have hparameters := hs.parameters (by simpa using homit)
    exact write_then_alike P _ ((printList_alike P hparameters).bind fun _ =>
      write_then_alike P _ hq)
  unfold function
  rw [← homitReturn,← homitParameters]
  generalize (if config.omitReturnType then none else s.returnType) = returnType at shown ⊢
  generalize (if config.omitReturnType then none else s'.returnType) = returnType' at shown ⊢
  cases shown with
  | none => exact named (Holds.ite (fun _ => Holds.pure rfl) fun _ => qualifiers)
  | some htype =>
    refine htype.1.left.bind fun _ => htype.2.bind fun _ => ?_
    refine writeUnless_then_alike P _ _ (named (htype.1.right.bind fun _ => ?_))
    exact Holds.ite (fun _ => Holds.pure rfl) fun _ => qualifiers

end

/-- Whatever a function gives for the parts of a node can stand for them. -/
structure Halves.StandsAll (L : Likeness) (config config' : Config) (h h' : Halves)
    (place place' : Place) (f : Node → Node) (node : Node) : Prop where
  keepsPlace : node.KeepsPlace
  parts : ∀ part ∈ node.printed, Halves.Stands L config config' h h' place place' part (f part)
  names : ∀ value, h.Alike L h' place place' (.sourceName value) (.sourceName value)
  literals : ∀ type, node.literalType? = some type →
    integerSuffix? type = integerSuffix? (f type) ∧
      ∀ value, numberFormat? type value = numberFormat? (f type) value

section
variable {L : Likeness} {config config' : Config} (P : Parallel L config config')
  {h h' : Halves} {place place' : Place} {f : Node → Node} {node : Node}

theorem names_alike
    (hnames : ∀ value, h.Alike L h' place place' (.sourceName value) (.sourceName value))
    (names : List String) :
    List.Forall₂ (h.Alike L h' place place') (names.map .sourceName) (names.map .sourceName) :=
  List.forall₂_same.mpr fun node hnode => by
    obtain ⟨value,_,rfl⟩ := List.mem_map.mp hnode
    exact hnames value

theorem list_alike {nodes : List Node}
    (hparts : ∀ part ∈ node.printed, Halves.Stands L config config' h h' place place' part (f part))
    (hnodes : ∀ part ∈ nodes, part ∈ node.printed) :
    List.Forall₂ (h.Alike L h' place place') nodes (nodes.map f) :=
  List.forall₂_map_right_iff.mpr
    (List.forall₂_same.mpr fun part hpart => (hparts part (hnodes part hpart)).toAlike)

theorem arguments_alike {arguments : Option (List Node)}
    (hparts : ∀ part ∈ node.printed, Halves.Stands L config config' h h' place place' part (f part))
    (hnodes : ∀ part ∈ arguments.getD [], part ∈ node.printed) :
    Option.Rel (List.Forall₂ (h.Alike L h' place place')) arguments (arguments.map (·.map f)) := by
  cases arguments with
  | none => exact .none
  | some nodes => exact .some (list_alike hparts hnodes)

theorem bound_alike {bound : Dimension Node}
    (hparts : ∀ part ∈ node.printed, Halves.Stands L config config' h h' place place' part (f part))
    (hnodes : ∀ part ∈ bound.nodes, part ∈ node.printed) :
    DimensionAlike L h h' place place' bound (bound.map f) := by
  cases bound with
  | size n => exact .size n
  | expression e => exact .expression (hparts e (hnodes e (.head _))).toAlike

theorem functionType_alike {type : FunctionType Node}
    (hparts : ∀ part ∈ (Node.functionType type).printed,
      Halves.Stands L config config' h h' place place' part (f part)) :
    FunctionAlike L h h' place place' type (type.map f) where
  returnType := (hparts _ (.head _)).toAlike
  parameters := list_alike hparts fun part hpart => by simp [Node.printed,hpart]
  exceptionSpec := by
    obtain ⟨returnType,parameters,cv,ref,spec,externC,transactionSafe⟩ := type
    cases spec with
    | none => exact .none
    | some spec =>
      cases spec with
      | noexcept condition =>
        cases condition with
        | none => exact .noexcept
        | some condition =>
          exact .condition (hparts condition (by simp [Node.printed,ExceptionSpec.nodes])).toAlike
      | throwing types =>
        exact .throwing (list_alike hparts fun part hpart => by
          simp [Node.printed,ExceptionSpec.nodes,hpart])
  cv := rfl
  ref := rfl
  transactionSafe := rfl

include P

/-- The left half of a node comes out alike when its parts are replaced. -/
theorem leftHalf_map_alike (hn : Halves.StandsAll L config config' h h' place place' f node) :
    L.Alike (leftHalf config h place node) (leftHalf config' h' place' (node.map f)) := by
  obtain ⟨hkeeps,hparts,hnames,hliterals⟩ := hn
  have printed : ∀ part ∈ node.printed, L.Alike (h.print place part) (h'.print place' (f part)) :=
    fun part hpart => (hparts part hpart).print
  have left : ∀ part ∈ node.printed, L.Alike (h.left place part) (h'.left place' (f part)) :=
    fun part hpart => (hparts part hpart).left
  have parenthesized : ∀ part ∈ node.printed,
      L.Alike (h.parenthesized place part) (h'.parenthesized place' (f part)) :=
    fun part hpart => parenthesized_alike P (hparts part hpart).toAlike
  have listed : ∀ nodes : List Node, (∀ part ∈ nodes, part ∈ node.printed) →
      L.Alike (h.printList place nodes) (h'.printList place' (nodes.map f)) :=
    fun nodes hnodes => printList_alike P (list_alike hparts hnodes)
  unfold leftHalf
  cases node with
  | sourceName value => exact P.write _
  | operatorName operator => exact P.write _
  | conversionOperatorName type => exact write_then_alike P _ (printed type (.head _))
  | literalOperatorName name => exact write_then_alike P _ (hnames name).print
  | vendorOperatorName arity name => exact write_then_alike P _ (hnames name).print
  | ctorDtorName kind name inheriting => exact writeIf_then_alike P _ _ (printed name (.head _))
  | abiTaggedName name tags => exact (printed name (.head _)).bind fun _ => abiTags_alike P tags
  | unnamedTypeName number => exact P.write _
  | closureTypeName parameters number => exact hkeeps.elim
  | structuredBindingName names =>
    exact write_then_alike P _ (then_write_alike P (printList_alike P (names_alike hnames names)) _)
  | nestedName scope name =>
    refine (printed scope (.head _)).bind fun _ => write_then_alike P _ ?_
    exact printed name (.tail _ (.head _))
  | templateName name arguments =>
    refine (printed name (.head _)).bind fun _ => templateArgs_alike P ?_
    exact list_alike hparts fun part hpart => .tail _ hpart
  | localName function entity => exact hkeeps.elim
  | stringLiteralName => exact P.write _
  | specialSubstitution name expanded =>
    cases expanded with
    | false => exact P.write _
    | true => exact P.expanded name
  | unresolvedName name globalScope => exact writeIf_then_alike P _ _ (printed name (.head _))
  | destructorName name => exact write_then_alike P _ (printed name (.head _))
  | builtinType type => exact P.write _
  | vendorExtendedType name arguments =>
    refine write_then_alike P _ (optionalTemplateArgs_alike P ?_)
    exact arguments_alike hparts fun part hpart => hpart
  | qualifiedType inner cv => exact (left inner (.head _)).bind fun _ => cvQualifiers_alike P cv
  | vendorQualifiedType inner qualifier arguments =>
    refine (left inner (.head _)).bind fun _ => write_then_alike P _ ?_
    exact optionalTemplateArgs_alike P (arguments_alike hparts fun part hpart => .tail _ hpart)
  | pointerType pointee => exact indirectionLeft_alike P (hparts pointee (.head _)).toFills _
  | referenceType referent kind =>
    refine Holds.bind ((hparts referent (.head _)).collapse kind) fun found found' hfound => ?_
    rw [hfound.1]
    exact indirectionLeft_alike P hfound.2 _
  | complexType inner => exact then_write_alike P (left inner (.head _)) _
  | imaginaryType inner => exact then_write_alike P (left inner (.head _)) _
  | arrayType element bound => exact left element (.head _)
  | pointerToMemberType classType memberType =>
    have hmember := hparts memberType (.tail _ (.head _))
    refine hmember.left.bind fun _ => hmember.needsParentheses.bind fun needs => ?_
    refine write_then_alike P _ ?_
    exact then_write_alike P (printed classType (.head _)) _
  | functionType type =>
    have hreturn := hparts type.returnType (.head _)
    refine hreturn.left.bind fun _ => hreturn.hasRightSide.bind fun right => ?_
    exact Holds.ite (fun _ => Holds.pure rfl) fun _ => P.write _
  | exceptionSpec spec => exact P.broken _ _
  | templateParam index => exact hkeeps.elim
  | packExpansion pattern => exact hkeeps.elim
  | decltypeType expression =>
    exact write_then_alike P _ (then_write_alike P (printed expression (.head _)) _)
  | vectorType element bound =>
    refine (printed element (.head _)).bind fun _ => write_then_alike P _ (then_write_alike P ?_ _)
    exact dimension_alike P (bound_alike hparts fun part hpart => .tail _ hpart)
  | elaboratedType keyword name => exact write_then_alike P _ (printed name (.head _))
  | templateArgs arguments =>
    exact templateArgs_alike P (list_alike hparts fun part hpart => hpart)
  | templateArgPack arguments => exact listed arguments fun part hpart => hpart
  | integerLiteral type value =>
    exact integerLiteral_alike P (hparts type (.head _)).toAlike (hliterals type rfl).1 value
  | floatLiteral type value =>
    exact floatLiteral_alike P (hparts type (.head _)).toAlike ((hliterals type rfl).2 value)
  | boolLiteral value => exact P.write _
  | nullptrLiteral => exact P.write _
  | stringLiteral type => exact write_then_alike P _ (then_write_alike P (printed type (.head _)) _)
  | externalName encoding => exact printed encoding (.head _)
  | functionParam number =>
    cases number with
    | none => exact P.write _
    | some number => exact P.write _
  | unaryExpression operator operand afterOperand =>
    refine Holds.ite (fun _ => ?_) fun _ => ?_
    · exact then_write_alike P (parenthesized operand (.head _)) _
    · exact write_then_alike P _ (parenthesized operand (.head _))
  | binaryExpression operator a b =>
    exact binaryExpression_alike P operator (hparts a (.head _)).toAlike
      (hparts b (.tail _ (.head _))).toAlike
  | conditionalExpression condition whenTrue whenFalse =>
    refine (parenthesized condition (.head _)).bind fun _ => write_then_alike P _ ?_
    refine (parenthesized whenTrue (.tail _ (.head _))).bind fun _ => write_then_alike P _ ?_
    exact parenthesized whenFalse (.tail _ (.tail _ (.head _)))
  | callExpression callee arguments =>
    refine (printed callee (.head _)).bind fun _ => write_then_alike P _ ?_
    exact then_write_alike P (listed arguments fun part hpart => .tail _ hpart) _
  | castExpression keyword type operand =>
    refine write_then_alike P _ ((printed type (.head _)).bind fun _ => write_then_alike P _ ?_)
    exact parenthesized operand (.tail _ (.head _))
  | conversionExpression type arguments =>
    refine (parenthesized type (.head _)).bind fun _ => write_then_alike P _ ?_
    exact then_write_alike P (listed arguments fun part hpart => .tail _ hpart) _
  | initListExpression type elements =>
    have braced : L.Alike
        (do
          write "\x7b"
          h.printList place elements
          write "\x7d")
        (do
          write "\x7b"
          h'.printList place' (elements.map f)
          write "\x7d") := by
      refine write_then_alike P _ (then_write_alike P (listed elements fun part hpart => ?_) _)
      exact List.mem_append_right _ hpart
    cases type with
    | none => exact braced
    | some type => exact (printed type (.head _)).bind fun _ => braced
  | newExpression placement type initializer array globalScope =>
    refine newExpression_alike P array globalScope ?_ (hparts type (.head _)).toAlike ?_
    · exact list_alike hparts fun part hpart => .tail _ (List.mem_append_left _ hpart)
    · exact arguments_alike hparts fun part hpart => .tail _ (List.mem_append_right _ hpart)
  | deleteExpression operand array globalScope =>
    exact writeIf_then_alike P _ _ (write_then_alike P _ (printed operand (.head _)))
  | typeOperatorExpression operator type =>
    exact write_then_alike P _ (write_then_alike P _ (parenthesized type (.head _)))
  | expressionOperatorExpression operator operand =>
    exact write_then_alike P _ (write_then_alike P _ (parenthesized operand (.head _)))
  | sizeofPackExpression pattern => exact write_then_alike P _ (parenthesized pattern (.head _))
  | memberExpression object access member =>
    refine (printed object (.head _)).bind fun _ => write_then_alike P _ ?_
    exact printed member (.tail _ (.head _))
  | throwExpression operand =>
    cases operand with
    | none => exact write_then_alike P _ (Holds.pure rfl)
    | some operand =>
      exact write_then_alike P _ (write_then_alike P _ (printed operand (.head _)))
  | packExpansionExpression pattern => exact hkeeps.elim
  | signature signature => exact P.broken _ _
  | encoding e => exact hkeeps.elim
  | specialName kind target offsets => exact write_then_alike P _ (printed target (.head _))
  | referenceTemporary name number => exact write_then_alike P _ (printed name (.head _))
  | constructionVtable complete base =>
    refine write_then_alike P _ ((printed base (.tail _ (.head _))).bind fun _ => ?_)
    exact write_then_alike P _ (printed complete (.head _))
  | mangledName encoding cloneSuffix =>
    refine (printed encoding (.head _)).bind fun _ => ?_
    cases cloneSuffix with
    | none => exact Holds.pure rfl
    | some suffix => exact P.write _

theorem rightHalf_map_alike (hn : Halves.StandsAll L config config' h h' place place' f node) :
    L.Alike (rightHalf config h place node) (rightHalf config' h' place' (node.map f)) := by
  obtain ⟨hkeeps,hparts,_,_⟩ := hn
  unfold rightHalf
  cases node with
  | qualifiedType inner cv => exact (hparts inner (.head _)).right
  | vendorQualifiedType inner qualifier arguments => exact (hparts inner (.head _)).right
  | pointerType pointee => exact indirectionRight_alike P (hparts pointee (.head _)).toFills
  | referenceType referent kind =>
    refine Holds.bind ((hparts referent (.head _)).collapse kind) fun found found' hfound => ?_
    exact indirectionRight_alike P hfound.2
  | arrayType element bound =>
    refine P.bound ?_
    cases bound with
    | none => exact write_then_alike P _ (hparts element (.head _)).right
    | some bound =>
      have hbound : DimensionAlike L h h' place place' bound (bound.map f) :=
        bound_alike hparts fun part hpart => .tail _ hpart
      refine (dimension_alike P hbound).bind fun _ => ?_
      exact write_then_alike P _ (hparts element (.head _)).right
  | pointerToMemberType classType memberType =>
    have hmember := hparts memberType (.tail _ (.head _))
    exact hmember.needsParentheses.bind fun needs => writeIf_then_alike P _ _ hmember.right
  | functionType type => exact functionTypeRight_alike P (functionType_alike hparts)
  | templateParam index => exact hkeeps.elim
  | _ => exact Holds.pure rfl

end

/-- Halves that come out alike for every node, each at one place. -/
def Halves.AllAlike (L : Likeness) (h h' : Halves) : Prop :=
  ∀ place node, h.Alike L h' place place node node

section
variable {L : Likeness} {config config' : Config} (P : Parallel L config config')
  (herrors : ∀ error, L.Throws (.error error) (.error error)) {h h' : Halves}
  (hh : h.AllAlike L h') (place : Place)
include P herrors hh

omit P herrors in
theorem allAlike_list (nodes : List Node) :
    List.Forall₂ (h.Alike L h' place place) nodes nodes :=
  List.forall₂_same.mpr fun node _ => hh place node

omit P hh in
theorem templateParam_alike {half half' : Place → Node → Printer Unit}
    (hhalf : ∀ place node, L.Alike (half place node) (half' place node))
    {auto auto' : Nat → Printer Unit} (hauto : ∀ index, L.Alike (auto index) (auto' index))
    (index : Nat) :
    L.Alike (templateParam half auto place index) (templateParam half' auto' place index) := by
  unfold templateParam
  refine Holds.ite (fun _ => hauto index) fun _ => (ofExcept_alike herrors _).bind ?_
  exact fun found => hhalf _ found.1

omit herrors in
theorem packExpansion_same (pattern : Node) :
    L.Alike (packExpansion config h place pattern) (packExpansion config' h' place pattern) :=
  packExpansion_alike P (packSize_alike P place pattern) (hh place pattern) fun _ => hh _ pattern

theorem function_same (homitReturn : config.omitReturnType = config'.omitReturnType)
    (homitParameters : config.omitParameterList = config'.omitParameterList) (name : Node)
    (s : Signature Node) :
    L.Alike (function config h place name s) (function config' h' place name s) := by
  refine function_alike P homitReturn homitParameters (hh _ name)
    ⟨fun _ => ?_,fun _ => allAlike_list hh _ _,rfl,rfl⟩
  cases s.returnType with
  | none => exact .none
  | some type => exact .some ⟨hh _ type,hasRightSide_alike P herrors _ type⟩

omit P herrors in
theorem encoding_alike
    (hfunction : ∀ place name s, L.Alike (function config h place name s)
      (function config' h' place name s))
    (e : Encoding Node) : L.Alike (encoding config h place e) (encoding config' h' place e) := by
  obtain ⟨name,signature⟩ := e
  unfold encoding
  cases signature with
  | none => exact (hh _ name).print
  | some signature => exact hfunction _ name signature

/-- Every node can stand for itself. -/
theorem stands_same (node : Node) : Halves.Stands L config config' h h' place place node node where
  toAlike := hh place node
  hasArray := ofExcept_alike herrors _
  needsParentheses := ofExcept_alike herrors _
  hasRightSide := hasRightSide_alike P herrors place node
  collapse kind := (collapse_alike P herrors place node kind).imp fun found found' hfound => by
    cases hfound
    exact ⟨rfl,hh _ _,ofExcept_alike herrors _,ofExcept_alike herrors _⟩

theorem standsAll_same {node : Node} (hkeeps : node.KeepsPlace) :
    Halves.StandsAll L config config' h h' place place (fun part => part) node where
  keepsPlace := hkeeps
  parts part _ := stands_same P herrors hh place part
  names _ := hh place _
  literals _ _ := ⟨rfl,fun _ => rfl⟩

theorem leftHalf_alike
    (hfunction : ∀ place name s, L.Alike (function config h place name s)
      (function config' h' place name s))
    (node : Node) : L.Alike (leftHalf config h place node) (leftHalf config' h' place node) := by
  have kept : node.KeepsPlace →
      L.Alike (leftHalf config h place node) (leftHalf config' h' place node) := by
    intro hkeeps
    have hmap := leftHalf_map_alike P (standsAll_same P herrors hh place hkeeps)
    rwa [node.map_same] at hmap
  cases node with
  | closureTypeName parameters number =>
    exact closure_alike P (allAlike_list hh _ parameters) number
  | localName function entity =>
    exact (hh place _).print.bind fun _ => write_then_alike P _ (hh _ entity).print
  | templateParam index =>
    unfold leftHalf
    exact templateParam_alike herrors place (fun place node => (hh place node).left)
      (fun _ => P.write _) index
  | packExpansion pattern => exact packExpansion_same P hh place pattern
  | packExpansionExpression pattern => exact packExpansion_same P hh place pattern
  | encoding e =>
    have he := encoding_alike hh place hfunction e
    exact he
  | _ => exact kept trivial

theorem rightHalf_alike (node : Node) :
    L.Alike (rightHalf config h place node) (rightHalf config' h' place node) := by
  have kept : node.KeepsPlace →
      L.Alike (rightHalf config h place node) (rightHalf config' h' place node) := by
    intro hkeeps
    have hmap := rightHalf_map_alike P (standsAll_same P herrors hh place hkeeps)
    rwa [node.map_same] at hmap
  cases node with
  | templateParam index =>
    unfold rightHalf
    exact templateParam_alike herrors place (fun place node => (hh place node).right)
      (fun _ => Holds.pure rfl) index
  | closureTypeName => exact Holds.pure rfl
  | localName => exact Holds.pure rfl
  | packExpansion => exact Holds.pure rfl
  | packExpansionExpression => exact Holds.pure rfl
  | encoding => exact Holds.pure rfl
  | _ => exact kept trivial

omit place in
theorem Halves.next_alike
    (hfunction : ∀ place name s, L.Alike (function config h place name s)
      (function config' h' place name s)) :
    (h.next config).AllAlike L (h'.next config') := by
  intro place node
  constructor
  · exact step_then_alike P (leftHalf_alike P herrors hh place hfunction node)
  · exact step_then_alike P (rightHalf_alike P herrors hh place node)

end

section
variable {L : Likeness} {config config' : Config} (P : Parallel L config config')
  (hstop : L.Throws (.error (.recursionLimitExceeded config.recursionLimit))
    (.error (.recursionLimitExceeded config'.recursionLimit)))
include P hstop

theorem Halves.exhausted_alike : (Halves.exhausted config).AllAlike L (Halves.exhausted config') :=
  fun _ _ => ⟨step_then_alike P (hstop _),step_then_alike P (hstop _)⟩

/-- Level by level, whatever is printed comes out alike. -/
theorem Halves.levels_alike (herrors : ∀ error, L.Throws (.error error) (.error error))
    (homitReturn : config.omitReturnType = config'.omitReturnType)
    (homitParameters : config.omitParameterList = config'.omitParameterList) (n : Nat) :
    (Halves.levels config n).AllAlike L (Halves.levels config' n) := by
  induction n with
  | zero => exact Halves.exhausted_alike P hstop
  | succ n ih =>
    exact Halves.next_alike P herrors ih fun place =>
      function_same P herrors ih place homitReturn homitParameters

end

end MangledNames.Printing
