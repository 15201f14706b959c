import MangledNames.Proofs.Printing.FunctionParts
import MangledNames.Proofs.Printing.LastSign
import MangledNames.Proofs.Printing.Respelling
import MangledNames.Proofs.Printing.Visiting
set_option autoImplicit false

/-!
Properties of texts that are kept where texts are put together. A node that is printed part by part
has such a property if its parts have it, whatever the property is.
-/

namespace MangledNames

def Node.spelledNames : Node → List String
  | sourceName name | literalOperatorName name | vendorOperatorName _ name
  | vendorExtendedType name _ | vendorQualifiedType _ name _ => [name]
  | structuredBindingName names | abiTaggedName _ names => names
  | _ => []

/-- The type between angle brackets that are closed whatever it ends with. -/
def Node.framedType? : Node → Option Node
  | castExpression _ type _ | stringLiteral type => some type
  | _ => none

theorem Encoding.return_printed {config : Config} {e : Encoding Node}
    {s : Signature Node} {type : Node} (hs : e.signature = some s)
    (htype : type ∈ Printing.shownReturn config s) : type ∈ e.printed config := by
  have htype : (if config.omitReturnType then none else s.returnType) = some type := htype
  cases homit : config.omitReturnType <;> simp [homit] at htype
  simp [Encoding.printed,hs,homit,htype]

theorem Encoding.parameter_printed {config : Config} {e : Encoding Node} {s : Signature Node}
    {parameter : Node} (hs : e.signature = some s) (hshown : config.omitParameterList = false)
    (hparameter : parameter ∈ s.parameters) : parameter ∈ e.printed config := by
  simp [Encoding.printed,hs,hshown,hparameter]

theorem Node.framedType_printed {node type : Node} (h : type ∈ node.framedType?) :
    type ∈ node.printed := by
  cases node <;> cases h <;> exact .head _

namespace Printing

/-- Whether a bracket is opened by one text and closed by the other, and
neither has another mark. -/
def encloses (before after : List Char) : Bool :=
  match before.filter isMark, after.filter isMark with
  | [opening], [closing] => closing? opening == some closing
  | _, _ => false

theorem encloses_marks {before after : List Char} (h : encloses before after = true) :
    ∃ opening closing, closing? opening = some closing ∧ before.filter isMark = [opening] ∧
      after.filter isMark = [closing] := by
  unfold encloses at h
  split at h
  · rename_i opening closing hbefore hafter
    exact ⟨opening,closing,by simpa using h,hbefore,hafter⟩
  · cases h

theorem closing?_cases {opening closing : Char} (h : closing? opening = some closing) :
    opening = '(' ∧ closing = ')' ∨ opening = '[' ∧ closing = ']' ∨
      opening = '\x7b' ∧ closing = '\x7d' := by
  unfold closing? at h
  split at h <;> cases h
  · exact .inl ⟨rfl,rfl⟩
  · exact .inr (.inl ⟨rfl,rfl⟩)
  · exact .inr (.inr ⟨rfl,rfl⟩)

theorem mem_marks {c : Char} {text marks : List Char} (h : text.filter isMark = marks)
    (hc : c ∈ text) (hmark : isMark c = true) : c ∈ marks := h ▸ List.mem_filter.mpr ⟨hc,hmark⟩

/-- A text of which this is the only mark has no other one. -/
theorem free_of_marks {text marks : List Char} {mark : Char} (h : text.filter isMark = [mark])
    (hmarks : marks.all isMark = true) (hmark : mark ∉ marks) : ∀ c ∈ text, c ∉ marks := by
  intro c hc hmem
  obtain rfl := List.mem_singleton.mp (mem_marks h hc (List.all_eq_true.mp hmarks c hmem))
  exact hmark hmem

/-- Whether an angle bracket is opened by a text that has no other mark. -/
def opensAngle (before : List Char) : Bool := before.filter isMark == ['<']

/-- The space that sets a closing bracket apart from the one that a text ends with. -/
def angleGap (text : String) : String := if text.toList.getLast? = some '>' then " " else ""

/-- What stands between a list of arguments and its closing bracket. -/
def argumentsGap (spaced : Bool) (text : String) : String := if spaced then angleGap text else ""

/-- The symbol of an operator between two operands. -/
def operationText (operator : Operator) (left right : String) : String :=
  "(" ++ left ++ ")" ++ (" " ++ operator.symbol ++ " ") ++ ("(" ++ right ++ ")")

theorem angleGap_last (text : String) : (text ++ angleGap text).toList.getLast? ≠ some '>' := by
  rw [String.toList_append]
  unfold angleGap
  split
  · rw [List.getLast?_append_of_ne_nil _ (by decide)]
    decide
  · simpa

theorem unmarked_argumentsGap (spaced : Bool) (text : String) :
    Unmarked (argumentsGap spaced text).toList := by
  unfold argumentsGap angleGap
  split
  · split <;> decide
  · decide

theorem argumentsGap_append (spaced : Bool) (u : String) {v : String} (hv : v ≠ "") :
    argumentsGap spaced (u ++ v) = argumentsGap spaced v := by
  unfold argumentsGap angleGap
  rw [String.toList_append,List.getLast?_append_of_ne_nil u.toList (by simpa using hv)]

section
variable {config : Config} {p : String → Prop}

theorem Says.enclosed {m : Printer Unit} (before after : String) (hm : Says m p) :
    Says (do
      Printing.write before
      m
      Printing.write after) fun text => ∃ inner, text = before ++ inner ++ after ∧ p inner := by
  have closing : Says (do
      m
      Printing.write after) fun text => ∃ inner, text = inner ++ after ∧ p inner :=
    hm.bind (fun _ => .write after) fun inner _ hinner hsame => ⟨inner,by rw [hsame],hinner⟩
  refine (closing.written before).imp ?_
  rintro _ ⟨_,rfl,inner,rfl,hinner⟩
  exact ⟨inner,(String.append_assoc ..).symm,hinner⟩

/-- A bracket is closed behind a gap, where one is asked for. -/
theorem closeAngle_ok {s t : Sheet} (hs : s.Sound) (hrun : closeAngle config s = .ok () t) :
    s.Leads t ∧ t.output.text =
      s.output.text ++ argumentsGap config.closingAngleSpace s.output.text ++ ">" := by
  have hask : closeAngle config s =
      (if (config.closingAngleSpace && s.output.last == some '>') = true
        then write " " >>= fun _ => write ">" else write ">") s := rfl
  rw [hask,hs.last_text] at hrun
  rw [String.append_assoc]
  unfold argumentsGap angleGap
  split at hrun
  · rename_i hlast
    simp only [Bool.and_eq_true,beq_iff_eq] at hlast
    obtain ⟨hleads,_,hadded,rfl⟩ := ((Says.write ">").before " ") s hs () t hrun
    rw [if_pos hlast.1,if_pos hlast.2]
    exact ⟨hleads,hadded⟩
  · rename_i hlast
    simp only [Bool.and_eq_true,beq_iff_eq,not_and] at hlast
    obtain ⟨hleads,_,hadded,rfl⟩ := Says.write ">" s hs () t hrun
    refine ⟨hleads,hadded.trans ?_⟩
    split
    · rename_i hspaced
      rw [if_neg (hlast hspaced),String.empty_append]
    · rw [String.empty_append]

theorem templateArgs_text {h : Halves} {place : Place} {arguments : List Node}
    (hlist : Says (h.printList place arguments) p) :
    Says (templateArgs config h place arguments) fun text => ∃ listed,
      text = "<" ++ listed ++ argumentsGap config.closingAngleSpace ("<" ++ listed) ++ ">" ∧
        p listed := by
  intro s hs _ t hrun
  obtain ⟨_,s₁,hopen,hrest⟩ := bind_ok hrun
  obtain ⟨_,s₂,hlisted,hclose⟩ := bind_ok hrest
  have hleads₁ := (Says.write "<").grows s hs () s₁ hopen
  obtain ⟨hs₁,htext₁⟩ := (Says.write "<").known hs hopen
  obtain ⟨hleads₂,listed,htext₂,hp⟩ := hlist s₁ hs₁ () s₂ hlisted
  obtain ⟨hleads₃,htext₃⟩ := closeAngle_ok (hleads₂.sound hs₁) hclose
  refine ⟨(hleads₁.trans hleads₂).trans hleads₃,_,?_,listed,rfl,hp⟩
  have htext : s₂.output.text = s.output.text ++ ("<" ++ listed) := by
    rw [htext₂,htext₁,String.append_assoc]
  rw [htext₃,htext,argumentsGap_append _ _ (by simp)]
  simp only [String.append_assoc]

end

/-- What has to be known of a property of texts, with brackets spaced or not. -/
structure TextInvariant (spaced : Bool) where
  Fits : String → Prop
  append : ∀ {u v}, Fits u → Fits v → Fits (u ++ v)
  unmarked : ∀ {text : String}, Unmarked text.toList → Fits text
  framed : ∀ {before text after : String}, encloses before.toList after.toList = true → Fits text →
    Fits (before ++ text ++ after)
  /-- Texts that show something may have a comma between them. -/
  join : ∀ {u v}, Fits u → Fits v → u ≠ "" → v ≠ "" → Fits (u ++ (", " ++ v))
  arguments : ∀ {text}, Fits text →
    Fits ("<" ++ text ++ argumentsGap spaced ("<" ++ text) ++ ">")
  /-- What a `>` may be written behind without a look at it. -/
  Closable : String → Prop
  angled : ∀ {before text}, opensAngle before.toList = true → Closable text →
    Fits (before ++ text ++ ">")
  operatorName : ∀ operator : Operator,
    Fits (if operator.isWord then "operator " ++ operator.symbol else "operator" ++ operator.symbol)
  symbol : ∀ {operator : Operator}, operator.kind = .prefixOp ∨ operator.kind = .postfixOp →
    Fits operator.symbol
  access : ∀ access : MemberAccess, Fits access.text
  operation : ∀ operator {left right}, Fits left → Fits right →
    Fits (operationText operator left right)
  expandedText : ∀ name : StandardName, Fits (name.expandedText spaced)

namespace TextInvariant

variable {spaced : Bool} (I : TextInvariant spaced)

/-- Whatever a run adds to a sheet has the property. -/
abbrev Writes {α : Type} (m : Printer α) : Prop := Says m I.Fits

/-- Two runs around another one. What they add may open something between them. -/
def Surrounds (left right : Printer Unit) : Prop := ∀ {m : Printer Unit}, I.Writes m → I.Writes (do
  left
  m
  right)

variable {I}

theorem empty : I.Fits "" := I.unmarked (by decide)

section
variable {α β : Type} {m : Printer α} {n : Printer β} {q : α → Printer β} {k : Unit → Printer β}
  {text before after : String}

theorem bind (h : I.Writes m) (hq : ∀ a, I.Writes (q a)) : I.Writes (m >>= q) :=
  Says.bind h hq fun _ _ => I.append

theorem andThen (h : I.Writes m) (hn : I.Writes n) : I.Writes (m >>= fun _ => n) :=
  bind h fun _ => hn

theorem write (h : I.Fits text) : I.Writes (Printing.write text) :=
  (Says.write text).imp fun _ hsame => hsame ▸ h

theorem plain (h : Unmarked text.toList) : I.Writes (Printing.write text) := write (I.unmarked h)

theorem pure (a : α) : I.Writes (Pure.pure a : Printer α) :=
  (Says.pure a).imp fun _ hsame => hsame ▸ empty

theorem ite {c : Prop} [Decidable c] {m' : Printer α} (h : c → I.Writes m) (h' : ¬c → I.Writes m') :
    I.Writes (if c then m else m') := by
  split
  · exact h ‹_›
  · exact h' ‹_›

theorem plainIf {c : Prop} [Decidable c] (htext : Unmarked text.toList) (h : I.Writes (k ())) :
    I.Writes (if c then Printing.write text >>= k else k ()) :=
  ite (fun _ => bind (plain htext) fun _ => h) fun _ => h

theorem asking (hgrows : Grows m) (hasks : Asks m) (hq : ∀ a, I.Writes (q a)) :
    I.Writes (m >>= q) :=
  Says.asked hgrows (fun s a t ht => ⟨hasks s a t ht,trivial⟩) fun a (_ : True) => hq a

/-- A text between two brackets. -/
theorem framedBy (before after : String) (hframe : encloses before.toList after.toList = true)
    (h : I.Fits text) : I.Fits (before ++ text ++ after) := I.framed hframe h

/-- A run between two brackets. -/
theorem enclosed {m : Printer Unit} (hframe : encloses before.toList after.toList = true)
    (hm : I.Writes m) :
    I.Writes (do
      Printing.write before
      m
      Printing.write after) := by
  refine (hm.enclosed before after).imp ?_
  rintro _ ⟨inner,rfl,hinner⟩
  exact I.framed hframe hinner

/-- A run between two brackets, and what follows it. -/
theorem wrapped {m : Printer Unit} (hframe : encloses before.toList after.toList = true)
    (hm : I.Writes m) (hk : I.Writes (k ())) :
    I.Writes (Printing.write before >>= fun _ => m >>= fun _ => Printing.write after >>= k) := by
  have hparts : (Printing.write before >>= fun _ => m >>= fun _ => Printing.write after >>= k) =
      ((do
        Printing.write before
        m
        Printing.write after : Printer Unit) >>= k) := by
    simp only [bind_assoc]
  rw [hparts]
  exact bind (enclosed hframe hm) fun _ => hk

/-- Where a comma may stand anywhere, texts may also show nothing. -/
theorem spread_fits {texts : List String} (hcomma : I.Fits ", ") (h : ∀ text ∈ texts, I.Fits text) :
    I.Fits (", ".intercalate texts) := by
  have further : ∀ printed, I.Fits (furtherText printed texts) := by
    induction texts with
    | nil => exact fun _ => empty
    | cons text texts ih =>
      rw [List.forall_mem_cons] at h
      intro printed
      have hseparator : I.Fits (separatorText printed) := by
        cases printed with
        | false => exact empty
        | true => exact hcomma
      exact I.append (I.append hseparator h.1) (ih h.2 true)
  rw [← furtherText_eq]
  exact further false

theorem list {print : β → Printer Unit} {items : List β}
    (h : ∀ item ∈ items, I.Writes (print item)) :
    I.Writes (Printing.list print items) := by
  intro s hs a t ht
  have hgrows : ∀ item ∈ items, Grows (print item) := fun item hitem => (h item hitem).grows
  obtain ⟨hleads,texts,hitems,htext⟩ := listFrom_texts hgrows hs ht
  rw [furtherText_eq] at htext
  refine ⟨hleads,_,htext,intercalate_induction empty I.join (fun text hmem => ?_)
    fun text hmem => ?_⟩
  · exact hitems.all (fun item hitem _ _ => (h item hitem).continues) text
      (List.mem_filter.mp hmem).1
  · simpa using (List.mem_filter.mp hmem).2

end

section
variable {h : Halves} {place : Place}

theorem printList {nodes : List Node} (hn : ∀ node ∈ nodes, I.Writes (h.print place node)) :
    I.Writes (h.printList place nodes) := list hn

theorem parenthesized {node : Node} (hn : I.Writes (h.print place node)) :
    I.Writes (h.parenthesized place node) := enclosed (by decide) hn

theorem parameterList {nodes : List Node} (hn : ∀ node ∈ nodes, I.Writes (h.print place node)) :
    I.Writes (Printing.parameterList h place nodes) := enclosed (by decide) (printList hn)

theorem cvQualifiers (cv : CvQualifiers) : I.Writes (Printing.cvQualifiers cv) := by
  unfold Printing.cvQualifiers
  exact plainIf (by decide) (plainIf (by decide) (ite (fun _ => plain (by decide)) fun _ => pure _))

theorem refQualifier (ref : Option ReferenceKind) : I.Writes (Printing.refQualifier ref) := by
  cases ref with
  | none => exact pure _
  | some kind => cases kind <;> exact plain (by decide)

theorem memberQualifiers (cv : CvQualifiers) (ref : Option ReferenceKind) :
    I.Writes (Printing.memberQualifiers cv ref) := andThen (cvQualifiers cv) (refQualifier ref)

theorem abiTags {tags : List String} (htags : ∀ tag ∈ tags, I.Fits tag) :
    I.Writes (Printing.abiTags tags) := by
  induction tags with
  | nil => exact pure _
  | cons tag tags ih =>
    rw [List.forall_mem_cons] at htags
    exact andThen (write (I.framed (by decide) htags.1)) (ih htags.2)

theorem dimension {bound : Dimension Node}
    (hn : ∀ node ∈ bound.nodes, I.Writes (h.print place node)) :
    I.Writes (Printing.dimension h place bound) := by
  cases bound with
  | size number => exact plain (unmarked_toString number)
  | expression e => exact hn e (.head _)

theorem exceptionSpec {spec : Option (ExceptionSpec Node)}
    (hn : ∀ node ∈ (spec.map ExceptionSpec.nodes).getD [], I.Writes (h.print place node)) :
    I.Writes (Printing.exceptionSpec h place spec) := by
  unfold Printing.exceptionSpec
  split
  · exact pure _
  · exact plain (by decide)
  · exact andThen (plain (by decide)) (parenthesized (hn _ (.head _)))
  · exact enclosed (by decide) (printList hn)

theorem closure {parameters : List Node} (number : Nat)
    (hn : ∀ node ∈ parameters, I.Writes (h.print { place with inClosure := true } node)) :
    I.Writes (Printing.closure h place parameters number) := by
  refine ((printList hn).enclosed "\x7blambda(" (")#" ++ toString number ++ "\x7d")).imp ?_
  rintro _ ⟨listed,rfl,hlisted⟩
  -- One bracket around the parameters, and one around all of it.
  have hparts : "\x7blambda(" ++ listed ++ (")#" ++ toString number ++ "\x7d") =
      "\x7b" ++ ("lambda(" ++ listed ++ ")" ++ ("#" ++ toString number)) ++ "\x7d" := by
    have hopening : ("\x7blambda(" : String) = "\x7b" ++ "lambda(" := rfl
    have hclosing : (")#" : String) = ")" ++ "#" := rfl
    simp only [hopening,hclosing,String.append_assoc]
  rw [hparts]
  refine I.framed (by decide) (I.append (I.framed (by decide) hlisted) (I.unmarked ?_))
  exact unmarked_append (by decide) (unmarked_toString number)

theorem newType {type : Node} {initializer : Option (List Node)}
    (htype : I.Writes (h.print place type))
    (hinitializer : ∀ node ∈ initializer.getD [], I.Writes (h.print place node)) :
    I.Writes (Printing.newType h place type initializer) := by
  refine andThen (plain (by decide)) (andThen htype ?_)
  cases initializer with
  | none => exact pure _
  | some initializer => exact parameterList hinitializer

theorem newExpression {placement : List Node} {type : Node} {initializer : Option (List Node)}
    (array globalScope : Bool) (hplacement : ∀ node ∈ placement, I.Writes (h.print place node))
    (htype : I.Writes (h.print place type))
    (hinitializer : ∀ node ∈ initializer.getD [], I.Writes (h.print place node)) :
    I.Writes (Printing.newExpression h place placement type initializer array globalScope) := by
  have typed : I.Writes (Printing.newType h place type initializer) := newType htype hinitializer
  have keyword : I.Fits (if array then "new[]" else "new") := by
    cases array with
    | false => exact I.unmarked (by decide)
    | true => exact framedBy "new[" "]" (by decide) empty
  unfold Printing.newExpression
  refine plainIf (by decide) (bind (write keyword) fun _ => ite (fun _ => typed) fun _ => ?_)
  exact wrapped (by decide) (printList hplacement) typed

theorem integerLiteral (config : Config) {type : Node} {value : String}
    (htype : I.Writes (h.print place type)) (hvalue : Unmarked value.toList) :
    I.Writes (Printing.integerLiteral config h place type value) := by
  unfold Printing.integerLiteral
  split
  · rename_i suffix hsuffix
    exact plain (unmarked_append hvalue (unmarked_cased config (unmarked_integerSuffix hsuffix)))
  · exact andThen (parenthesized htype) (plain hvalue)

theorem floatLiteral (config : Config) {type : Node} {value : String}
    (htype : I.Writes (h.print place type)) (hvalue : Unmarked value.toList) :
    I.Writes (Printing.floatLiteral config h place type value) := by
  unfold Printing.floatLiteral
  split
  · rename_i hformat
    split
    · exact plain (unmarked_cased config (unmarked_floatText hformat _))
    · exact Says.throw _
  · exact andThen (parenthesized htype) (write (I.framed (by decide) (I.unmarked hvalue)))

/-- Two operands in parentheses, and their operator. -/
theorem operation_text (operator : Operator) {left right : Node} {p : String → Prop}
    (hleft : Says (h.print place left) p) (hright : Says (h.print place right) p) :
    Says (do
      h.parenthesized place left
      Printing.write (" " ++ operator.symbol ++ " ")
      h.parenthesized place right) fun text =>
        ∃ l r, text = operationText operator l r ∧ p l ∧ p r := by
  have spelled : Says (do
      Printing.write (" " ++ operator.symbol ++ " ")
      h.parenthesized place right) _ := (hright.enclosed "(" ")").written _
  refine (hleft.enclosed "(" ")").bind (fun _ => spelled) ?_
  rintro _ _ ⟨l,rfl,hl⟩ ⟨_,rfl,r,rfl,hr⟩
  exact ⟨l,r,by simp only [operationText,String.append_assoc],hl,hr⟩

theorem binaryExpression (operator : Operator) {left right : Node}
    (hleft : I.Writes (h.print place left)) (hright : I.Writes (h.print place right)) :
    I.Writes (Printing.binaryExpression h place operator left right) := by
  have operation : I.Writes (do
      h.parenthesized place left
      Printing.write (" " ++ operator.symbol ++ " ")
      h.parenthesized place right) := by
    refine (operation_text operator hleft hright).imp ?_
    rintro _ ⟨l,r,rfl,hl,hr⟩
    exact I.operation operator hl hr
  unfold Printing.binaryExpression
  refine ite (fun _ => ?_) fun _ => ?_
  · exact andThen (parenthesized hleft) (enclosed (by decide) hright)
  · by_cases hgreater : operator = .greater
    · simp only [if_pos hgreater]
      have inner : I.Writes (do
          Printing.write "("
          (do
            h.parenthesized place left
            Printing.write (" " ++ operator.symbol ++ " ")
            h.parenthesized place right)
          Printing.write ")") := enclosed (by decide) operation
      simpa only [bind_assoc] using inner
    · simp only [if_neg hgreater]
      simpa only [bind_assoc] using andThen operation (pure ())

/-- An expansion of which the elements, or else the pattern, have the property. -/
theorem packExpansion {config : Config} {pattern : Node}
    (hstays : packCount place pattern = none → I.Writes (h.print place pattern))
    (helements : ∀ size, packCount place pattern = some size → ∀ i < size,
      I.Writes (h.print { place with packIndex := some i } pattern))
    (hexpands : ∀ size before texts, packCount place pattern = some size →
      ItemTexts true (fun i => h.print { place with packIndex := some i } pattern) false before
        (List.range size) texts → (∀ text ∈ texts, I.Fits text) → I.Fits (", ".intercalate texts)) :
    I.Writes (Printing.packExpansion config h place pattern) := by
  have hgrows : Grows (packSize config place pattern) :=
    grows_of_sparing (packSize_alike (parallel_sparing (.refl config)) place pattern)
  refine .asked hgrows (fun s size t hsize => (packSize_ok hsize).symm) fun size hsize => ?_
  cases size with
  | none => exact andThen (parenthesized (hstays hsize.symm)) (plain (by decide))
  | some size =>
    have elements := helements size hsize.symm
    intro s hs _ t hrun
    obtain ⟨hleads,texts,hitems,htext⟩ := packElements_texts
      (fun i hi => (elements i (by simpa using hi)).grows) hs hrun
    rw [decide_eq_false (not_not_intro rfl),furtherText_eq] at htext
    rw [decide_eq_false (not_not_intro rfl),← List.range_eq_range'] at hitems
    refine ⟨hleads,_,htext,hexpands size _ texts hsize.symm hitems ?_⟩
    exact hitems.all fun i hi _ _ => (elements i (List.mem_range.mp hi)).continues

end

section
variable {config : Config} {I : TextInvariant config.closingAngleSpace} {h : Halves} {place : Place}

theorem templateArgs {arguments : List Node}
    (hn : ∀ node ∈ arguments, I.Writes (h.print place node)) :
    I.Writes (Printing.templateArgs config h place arguments) := by
  refine (templateArgs_text (printList hn)).imp ?_
  rintro _ ⟨listed,rfl,hlisted⟩
  exact I.arguments hlisted

theorem optionalTemplateArgs {arguments : Option (List Node)}
    (hn : ∀ node ∈ arguments.getD [], I.Writes (h.print place node)) :
    I.Writes (Printing.optionalTemplateArgs config h place arguments) := by
  cases arguments with
  | none => exact pure _
  | some arguments => exact templateArgs hn

theorem Surrounds.print {left right : Printer Unit} (hhalves : I.Surrounds left right) :
    I.Writes (do
      left
      right) := by
  have hnothing := hhalves (pure ())
  simpa only [pure_bind] using hnothing

theorem unlessOmitted {omitted : Bool} {m : Printer Unit} (hm : omitted = false → I.Writes m) :
    I.Writes (Printing.unlessOmitted omitted m) := by
  unfold Printing.unlessOmitted
  exact ite (fun _ => pure _) fun hshown => hm (by simpa using hshown)

/-- The name and the parameters of a function stand between the halves of its return type. -/
theorem function {name : Node} {s : Signature Node} (hname : I.Writes (h.print place name))
    (hreturn : ∀ type ∈ shownReturn config s, I.Surrounds (h.left place type) (h.right place type))
    (hparameters : config.omitParameterList = false →
      ∀ node ∈ s.parameters, I.Writes (h.print place node)) :
    I.Writes (Printing.function config h place name s) := by
  have declared : I.Writes (do
      h.print place name
      Printing.unlessOmitted config.omitParameterList
        (Printing.parameterList h place s.parameters)) :=
    andThen hname (unlessOmitted fun hshown => parameterList (hparameters hshown))
  have qualified : I.Writes (Printing.unlessOmitted config.omitParameterList
      (Printing.memberQualifiers s.cv s.ref)) := unlessOmitted fun _ => memberQualifiers s.cv s.ref
  rw [function_parts]
  cases htype : shownReturn config s with
  | none => simpa only [beforeName,behindName,pure_bind,bind_assoc] using andThen declared qualified
  | some type =>
    have apart : I.Writes (do
        unless ← hasRightSide config place type do Printing.write " ") :=
      asking (hasRightSide_grows place type) (hasRightSide_asks config place type) fun _ =>
        ite (fun _ => pure _) fun _ => plain (by decide)
    have surrounded := hreturn type htype (andThen apart declared)
    simpa only [beforeName,behindName,bind_assoc] using andThen surrounded qualified

theorem encoding {e : Encoding Node} (hn : ∀ part ∈ e.printed config,
      I.Surrounds (h.left (place.enter (templateArgsOf e.name)) part)
        (h.right (place.enter (templateArgsOf e.name)) part)) :
    I.Writes (Printing.encoding config h place e) := by
  have hname := Surrounds.print (hn e.name (.head _))
  unfold Printing.encoding
  cases hs : e.signature with
  | none => exact hname
  | some s =>
    refine function hname (fun type htype => hn type ?_) fun hshown node hnode =>
      Surrounds.print (hn node ?_)
    · exact Encoding.return_printed hs htype
    · exact Encoding.parameter_printed hs hshown hnode

end

end TextInvariant

end Printing

end MangledNames
