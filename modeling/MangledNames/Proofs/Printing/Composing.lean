import MangledNames.Proofs.Printing.Invariants
set_option autoImplicit false

/-!
What is printed of a node has a property of texts if what is visited next has it: one walk over all
nodes that have everything in their left half.
-/

namespace MangledNames.Printing

open Node

theorem unmarked_chars {chars : List Char} {text : String} (h : text = String.ofList chars)
    (hplain : Unmarked chars) : Unmarked text.toList := by
  rw [h,String.toList_ofList]
  exact hplain

namespace TextInvariant

variable {config : Config} {I : TextInvariant config.closingAngleSpace} {h : Halves} {place : Place}
  {node : Node}

/-- All that is written while a node is printed has a property, piece by piece. -/
structure Pieces (I : TextInvariant config.closingAngleSpace) (h : Halves) (place : Place)
    (node : Node) : Prop where
  visits : ∀ {spot}, Visits config (place,node) spot →
    I.Surrounds (h.left spot.1 spot.2) (h.right spot.1 spot.2)
  names : ∀ name ∈ node.spelledNames, I.Fits name ∧ I.Writes (h.print place (.sourceName name))
  asRead : AsRead node
  framed : ∀ type ∈ node.framedType?, Says (h.print place type) I.Closable
  /-- The texts of the elements of an expanded pack fit between its commas. -/
  expands : ∀ {pattern size before texts}, node.pattern? = some pattern →
    packCount place pattern = some size →
    ItemTexts true (fun i => h.print { place with packIndex := some i } pattern) false before
      (List.range size) texts →
    (∀ text ∈ texts, I.Fits text) → I.Fits (", ".intercalate texts)

namespace Pieces

variable (hp : Pieces I h place node)
include hp

theorem part {spot : Place × Node} (hspot : spot ∈ parts config place node) :
    I.Writes (h.print spot.1 spot.2) := Surrounds.print (hp.visits (.part hspot))

theorem printed {part : Node} (hpart : part ∈ node.printed) : I.Writes (h.print place part) := by
  by_cases hkeeps : node.KeepsPlace
  · have hspot : (place,part) ∈ parts config place node := by
      rw [parts_of_keepsPlace hkeeps]
      exact List.mem_map_of_mem hpart
    exact hp.part hspot
  · cases node <;> first | exact absurd trivial hkeeps | cases hpart

theorem packExpansion {pattern : Node} (hpattern : node.pattern? = some pattern) :
    I.Writes (Printing.packExpansion config h place pattern) := by
  refine TextInvariant.packExpansion (fun hstays => ?_) (fun size hsize i hi => ?_)
    fun size before texts hsize => hp.expands hpattern hsize
  · exact Surrounds.print (hp.visits (.pattern hpattern hstays))
  · have hspot : ({ place with packIndex := some i },pattern) ∈ parts config place node := by
      cases node <;> cases hpattern <;> simpa [parts,hsize] using hi
    exact hp.part hspot

end Pieces

theorem newExpression_pieces {placement : List Node} {type : Node}
    {initializer : Option (List Node)} {array globalScope : Bool}
    (hp : Pieces I h place (.newExpression placement type initializer array globalScope)) :
    I.Writes (Printing.newExpression h place placement type initializer array globalScope) :=
  newExpression array globalScope
    (fun _ hnode => hp.printed (.tail _ (List.mem_append_left _ hnode))) (hp.printed (.head _))
    fun _ hnode => hp.printed (.tail _ (List.mem_append_right _ hnode))

theorem localName_pieces {function : Encoding Node} {entity : Node}
    (hp : Pieces I h place (.localName function entity)) :
    I.Writes (leftHalf config h place (.localName function entity)) :=
  andThen (hp.part (.head _)) (andThen (plain (by decide)) (hp.part (.tail _ (.head _))))

theorem castExpression_pieces {keyword : CastKeyword} {type operand : Node}
    (hp : Pieces I h place (.castExpression keyword type operand)) :
    I.Writes (leftHalf config h place (.castExpression keyword type operand)) := by
  have hopening : opensAngle (keyword.text ++ "<").toList = true := by cases keyword <;> decide
  have typed : I.Writes (do
      Printing.write (keyword.text ++ "<")
      h.print place type
      Printing.write ">") := by
    refine ((hp.framed type rfl).enclosed _ _).imp ?_
    rintro _ ⟨inner,rfl,hinner⟩
    exact I.angled hopening hinner
  have cast := andThen typed (parenthesized (hp.printed (.tail _ (.head _))))
  simpa only [leftHalf,bind_assoc] using cast

theorem stringLiteral_pieces {type : Node} (hp : Pieces I h place (.stringLiteral type)) :
    I.Writes (leftHalf config h place (.stringLiteral type)) := by
  refine ((hp.framed type rfl).enclosed "\"<" ">\"").imp ?_
  rintro _ ⟨inner,rfl,hinner⟩
  have hclosing : (">\"" : String) = ">" ++ "\"" := rfl
  rw [hclosing,← String.append_assoc]
  exact I.append (I.angled (by decide) hinner) (I.unmarked (by decide))

theorem builtinType (type : BuiltinType) (hread : AsRead (.builtinType type)) :
    I.Fits type.name := by
  cases type with
  | floatN digits => exact I.unmarked (unmarked_append (by decide) hread)
  | decltypeAuto =>
    exact framedBy "decltype(" ")" (by decide) (I.unmarked (by decide) : I.Fits "auto")
  | _ => exact I.unmarked (unmarked_chars rfl (by decide))

/-- What a node prints has the property if all its pieces have it. -/
theorem composed (hp : Pieces I h place node) (hsingle : ¬HasHalves node) :
    I.Writes (leftHalf config h place node) := by
  have part : ∀ {part : Node}, part ∈ node.printed → I.Writes (h.print place part) := hp.printed
  have fits : ∀ {name : String}, name ∈ node.spelledNames → I.Fits name :=
    fun hname => (hp.names _ hname).1
  have named : ∀ {name : String}, name ∈ node.spelledNames →
      I.Writes (h.print place (.sourceName name)) :=
    fun hname => (hp.names _ hname).2
  unfold leftHalf
  cases node with
  | sourceName value => exact write (fits (.head _))
  | operatorName operator => exact write (I.operatorName operator)
  | conversionOperatorName type => exact andThen (plain (by decide)) (part (.head _))
  | literalOperatorName name => exact andThen (plain (by decide)) (named (.head _))
  | vendorOperatorName arity name => exact andThen (plain (by decide)) (named (.head _))
  | ctorDtorName kind name inheriting => exact plainIf (by decide) (part (.head _))
  | abiTaggedName name tags => exact andThen (part (.head _)) (abiTags fun _ => fits)
  | unnamedTypeName number =>
    exact write (framedBy _ _ (by decide) (I.unmarked (unmarked_toString number)))
  | closureTypeName parameters number =>
    exact closure number fun node hnode => hp.part (List.mem_map_of_mem hnode)
  | structuredBindingName names =>
    exact enclosed (by decide) (printList (List.forall_mem_map.mpr fun _ => named))
  | nestedName scope name =>
    exact andThen (part (.head _)) (andThen (plain (by decide)) (part (.tail _ (.head _))))
  | templateName name arguments =>
    exact andThen (part (.head _)) (templateArgs fun _ hnode => part (.tail _ hnode))
  | localName function entity => exact localName_pieces hp
  | stringLiteralName => exact plain (by decide)
  | specialSubstitution name expanded =>
    cases expanded with
    | false =>
      have htext :
        Unmarked name.text.toList := by cases name <;> exact unmarked_chars rfl (by decide)
      exact plain htext
    | true => exact write (I.expandedText name)
  | unresolvedName name globalScope => exact plainIf (by decide) (part (.head _))
  | destructorName name => exact andThen (plain (by decide)) (part (.head _))
  | builtinType type => exact write (builtinType type hp.asRead)
  | vendorExtendedType name arguments =>
    exact andThen (write (fits (.head _))) (optionalTemplateArgs fun _ => part)
  | packExpansion pattern => exact hp.packExpansion rfl
  | decltypeType expression => exact enclosed (by decide) (part (.head _))
  | vectorType element bound =>
    exact andThen (part (.head _))
      (enclosed (by decide) (dimension fun _ hnode => part (.tail _ hnode)))
  | elaboratedType keyword name =>
    have hkeyword : Unmarked (keyword.text ++ " ").toList := by
      cases keyword <;> exact unmarked_append (unmarked_chars rfl (by decide)) (by decide)
    exact andThen (plain hkeyword) (part (.head _))
  | templateArgs arguments => exact templateArgs fun _ => part
  | templateArgPack arguments => exact printList fun _ => part
  | integerLiteral type value => exact integerLiteral config (part (.head _)) hp.asRead
  | floatLiteral type value => exact floatLiteral config (part (.head _)) hp.asRead
  | boolLiteral value => cases value <;> exact plain (by decide)
  | nullptrLiteral => exact plain (by decide)
  | stringLiteral type => exact stringLiteral_pieces hp
  | externalName encoding => exact part (.head _)
  | functionParam number =>
    cases number with
    | none => exact plain (by decide)
    | some number => exact plain (unmarked_append (by decide) (unmarked_toString number))
  | unaryExpression operator operand afterOperand =>
    have hsymbol : I.Writes (Printing.write operator.symbol) := write (I.symbol hp.asRead)
    refine ite (fun _ => ?_) fun _ => ?_
    · exact andThen (parenthesized (part (.head _))) hsymbol
    · exact andThen hsymbol (parenthesized (part (.head _)))
  | binaryExpression operator left right =>
    exact binaryExpression operator (part (.head _)) (part (.tail _ (.head _)))
  | conditionalExpression condition whenTrue whenFalse =>
    exact andThen (parenthesized (part (.head _))) (andThen (plain (by decide))
      (andThen (parenthesized (part (.tail _ (.head _)))) (andThen (plain (by decide))
        (parenthesized (part (.tail _ (.tail _ (.head _))))))))
  | callExpression callee arguments =>
    exact andThen (part (.head _))
      (enclosed (by decide) (printList fun _ hnode => part (.tail _ hnode)))
  | castExpression keyword type operand => exact castExpression_pieces hp
  | conversionExpression type arguments =>
    exact andThen (parenthesized (part (.head _)))
      (enclosed (by decide) (printList fun _ hnode => part (.tail _ hnode)))
  | initListExpression type elements =>
    have braced : I.Writes (do
        Printing.write "\x7b"
        h.printList place elements
        Printing.write "\x7d") :=
      enclosed (by decide) (printList fun _ hnode => part (List.mem_append_right _ hnode))
    cases type with
    | none => exact braced
    | some type => exact andThen (part (.head _)) braced
  | newExpression placement type initializer array globalScope => exact newExpression_pieces hp
  | deleteExpression operand array globalScope =>
    have keyword : I.Fits (if array then "delete[] " else "delete ") := by
      cases array with
      | false => exact I.unmarked (by decide)
      | true => exact framedBy "delete[" "] " (by decide) empty
    exact plainIf (by decide) (andThen (write keyword) (part (.head _)))
  | typeOperatorExpression operator type =>
    have hoperator :
      Unmarked operator.text.toList := by cases operator <;> exact unmarked_chars rfl (by decide)
    exact andThen (plain hoperator) (andThen (plain (by decide)) (parenthesized (part (.head _))))
  | expressionOperatorExpression operator operand =>
    have hoperator :
      Unmarked operator.text.toList := by cases operator <;> exact unmarked_chars rfl (by decide)
    exact andThen (plain hoperator) (andThen (plain (by decide)) (parenthesized (part (.head _))))
  | sizeofPackExpression pattern =>
    exact andThen (plain (by decide)) (parenthesized (part (.head _)))
  | memberExpression object access member =>
    exact andThen (part (.head _)) (andThen (write (I.access access)) (part (.tail _ (.head _))))
  | throwExpression operand =>
    cases operand with
    | none => exact andThen (plain (by decide)) (pure _)
    | some operand =>
      exact andThen (plain (by decide)) (andThen (plain (by decide)) (part (.head _)))
  | packExpansionExpression pattern => exact hp.packExpansion rfl
  | encoding e => exact encoding fun _ hpart => hp.visits (.part (List.mem_map_of_mem hpart))
  | specialName kind target offsets =>
    have hkind :
      Unmarked kind.description.toList := by cases kind <;> exact unmarked_chars rfl (by decide)
    exact andThen (plain hkind) (part (.head _))
  | referenceTemporary name number =>
    have hnumber : Unmarked ("reference temporary #" ++ toString number ++ " for ").toList :=
      unmarked_append (unmarked_append (by decide) (unmarked_toString number)) (by decide)
    exact andThen (plain hnumber) (part (.head _))
  | constructionVtable complete base =>
    exact andThen (plain (by decide)) (andThen (part (.tail _ (.head _)))
      (andThen (plain (by decide)) (part (.head _))))
  | mangledName encoding cloneSuffix =>
    cases cloneSuffix with
    | none => exact andThen (part (.head _)) (pure _)
    | some suffix =>
      exact andThen (part (.head _)) (write (framedBy " (" ")" (by decide) (I.unmarked hp.asRead)))
  | signature s => exact Says.throw _
  | exceptionSpec spec => exact Says.throw _
  | _ => exact absurd trivial hsingle

end TextInvariant

end MangledNames.Printing
