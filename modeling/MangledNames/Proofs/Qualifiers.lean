import MangledNames.Symbol
import MangledNames.Proofs.Printing.OneSided
import MangledNames.Proofs.Printing.Texts
set_option autoImplicit false

/-!
Where the qualifiers of a function are printed: behind its parameters and behind all that its return
type has to the right of them.
-/

namespace MangledNames

namespace Printing

def qualifierText (cv : CvQualifiers) (ref : Option ReferenceKind) : String :=
  cvText cv ++ ref.elim "" fun kind => " " ++ kind.sign

def transactionText (safe : Bool) : String := if safe = true then " transaction_safe" else ""

/-- A type that was found to print nothing to the right of what it declares. -/
def NoRightSide (config : Config) (place : Place) (type : Node) : Prop :=
  ∃ s t, hasRightSide config place type s = .ok false t

/-- What the right half of a function type is behind a text: the parameters in parentheses, what the
return type has to its right, and only then the qualifiers. -/
def FunctionTypeText (config : Config) (n : Nat) (place : Place) (f : FunctionType Node)
    (before text : String) : Prop :=
  ∃ parameters result specification,
    text = "(" ++ parameters ++ ")" ++ result ++ qualifierText f.cv f.ref ++ specification ++
      transactionText f.transactionSafe ∧
    Continues ((Halves.levels config n).printList place f.parameters) (before ++ "(") parameters ∧
    Continues ((Halves.levels config n).right place f.returnType)
      (before ++ "(" ++ parameters ++ ")") result ∧
    Continues (exceptionSpec (Halves.levels config n) place f.exceptionSpec)
      (before ++ "(" ++ parameters ++ ")" ++ result ++ qualifierText f.cv f.ref) specification ∧
    (NoRightSide config place f.returnType → result = "")

/-- What a function with its parameter list is behind a text. -/
def FunctionText (config : Config) (n : Nat) (place : Place) (name : Node) (s : Signature Node)
    (before text : String) : Prop :=
  ∃ returned named parameters result,
    text = returned ++ named ++ "(" ++ parameters ++ ")" ++ result ++ qualifierText s.cv s.ref ∧
    Continues (beforeName config (Halves.levels config n) place (shownReturn config s)) before
      returned ∧
    Continues ((Halves.levels config n).print place name) (before ++ returned) named ∧
    Continues ((Halves.levels config n).printList place s.parameters)
      (before ++ returned ++ named ++ "(") parameters ∧
    Continues (behindName (Halves.levels config n) place (shownReturn config s))
      (before ++ returned ++ named ++ "(" ++ parameters ++ ")") result ∧
    ((∀ type, shownReturn config s = some type → NoRightSide config place type) → result = "")

section
variable {config : Config} {n : Nat} {place : Place}

theorem memberQualifiers_puts (cv : CvQualifiers) (ref : Option ReferenceKind) :
    Says (memberQualifiers cv ref) (· = qualifierText cv ref) := by
  have href : Says (refQualifier ref) (· = ref.elim "" fun kind => " " ++ kind.sign) := by
    cases ref with
    | none => exact .pure ()
    | some kind => exact .write _
  refine (cvQualifiers_puts cv).bind (fun _ => href) fun _ _ hcv href => ?_
  rw [hcv,href,qualifierText]

theorem exceptionSpec_grows (spec : Option (ExceptionSpec Node)) :
    Grows (exceptionSpec (Halves.levels config n) place spec) := by
  have hh := Halves.levels_sparing (.refl config) n
  have hspec : SpecAlike sparing (Halves.levels config n) (Halves.levels config n) place place spec
      spec := by
    match spec with
    | none => exact .none
    | some (.noexcept none) => exact .noexcept
    | some (.noexcept (some condition)) => exact .condition (hh place condition)
    | some (.throwing types) => exact .throwing (allAlike_list hh place types)
  exact grows_of_sparing (exceptionSpec_alike (parallel_sparing (.refl config)) hspec)

theorem beforeName_grows (type : Option Node) :
    Grows (beforeName config (Halves.levels config n) place type) := by
  cases type with
  | none => exact (Says.pure ()).grows
  | some type =>
    refine (Halves.left_grows n place type).bind fun _ => ?_
    refine (hasRightSide_grows place type).bind fun right => ?_
    cases right with
    | true => exact (Says.pure ()).grows
    | false => exact (Says.write " ").grows

theorem behindName_grows (type : Option Node) :
    Grows (behindName (Halves.levels config n) place type) := by
  cases type with
  | none => exact (Says.pure ()).grows
  | some type => exact Halves.right_grows n place type

/-- Nothing is written behind where there is no right half. -/
theorem NoRightSide.asks {type : Node} (h : NoRightSide config place type) :
    Asks ((Halves.levels config n).right place type) := by
  obtain ⟨s,t,hrun⟩ := h
  exact (OneSided.of_hasRightSide hrun).right n

theorem parameterList_text {parameters : List Node} {s t : Sheet} (hs : s.Sound)
    (hrun : parameterList (Halves.levels config n) place parameters s = .ok () t) :
    t.Sound ∧ ∃ text, t.output.text = s.output.text ++ "(" ++ text ++ ")" ∧
      Continues ((Halves.levels config n).printList place parameters)
      (s.output.text ++ "(") text := by
  obtain ⟨_,s₁,hopen,hrun⟩ := bind_ok hrun
  obtain ⟨_,s₂,hlist,hclose⟩ := bind_ok hrun
  obtain ⟨hs₁,hopened⟩ := (Says.write "(").known hs hopen
  obtain ⟨hs₂,text,htext,hcontinues⟩ :=
    (Halves.printList_grows n place parameters).continues hs₁ hlist
  obtain ⟨ht,hclosed⟩ := (Says.write ")").known hs₂ hclose
  rw [hopened] at htext hcontinues
  exact ⟨ht,text,by rw [hclosed,htext],hcontinues⟩

theorem functionTypeRight_text {f : FunctionType Node} {s t : Sheet} (hs : s.Sound)
    (hrun : functionTypeRight (Halves.levels config n) place f s = .ok () t) :
    ∃ text, t.output.text = s.output.text ++ text ∧
      FunctionTypeText config n place f s.output.text text := by
  rw [functionTypeRight_parts] at hrun
  obtain ⟨_,s₁,hlist,hrun⟩ := bind_ok hrun
  obtain ⟨_,s₂,hright,hrun⟩ := bind_ok hrun
  obtain ⟨_,s₃,hqualifiers,hrun⟩ := bind_ok hrun
  obtain ⟨_,s₄,hspec,hsafe⟩ := bind_ok hrun
  obtain ⟨hs₁,parameters,htext₁,hparameters⟩ := parameterList_text hs hlist
  obtain ⟨hs₂,result,htext₂,hresult⟩ :=
    (Halves.right_grows n place f.returnType).continues hs₁ hright
  obtain ⟨hs₃,htext₃⟩ := (memberQualifiers_puts f.cv f.ref).known hs₂ hqualifiers
  obtain ⟨hs₄,specification,htext₄,hspecification⟩ :=
    (exceptionSpec_grows f.exceptionSpec).continues hs₃ hspec
  have hempty : NoRightSide config place f.returnType → result = "" :=
    fun hnone => hnone.asks.added hright htext₂
  obtain ⟨_,htext₅⟩ := (Says.writeIf f.transactionSafe " transaction_safe").known hs₄ hsafe
  rw [htext₁] at htext₂ hresult
  rw [htext₂] at htext₃
  rw [htext₃] at htext₄ hspecification
  refine ⟨"(" ++ parameters ++ ")" ++ result ++ qualifierText f.cv f.ref ++ specification ++
    transactionText f.transactionSafe,?_,parameters,result,specification,rfl,hparameters,hresult,
    hspecification,hempty⟩
  rw [htext₅,htext₄]
  simp [transactionText,String.append_assoc]

theorem function_text {name : Node} {signature : Signature Node}
    (hlist : config.omitParameterList = false) {s t : Sheet} (hs : s.Sound)
    (hrun : function config (Halves.levels config n) place name signature s = .ok () t) :
    ∃ text, t.output.text = s.output.text ++ text ∧
      FunctionText config n place name signature s.output.text text := by
  rw [function_parts,hlist] at hrun
  obtain ⟨_,s₁,hbefore,hrun⟩ := bind_ok hrun
  obtain ⟨_,s₂,hname,hrun⟩ := bind_ok hrun
  obtain ⟨_,s₃,hparameters,hrun⟩ := bind_ok hrun
  obtain ⟨_,s₄,hbehind,hqualifiers⟩ := bind_ok hrun
  obtain ⟨hs₁,returned,htext₁,hreturned⟩ := (beforeName_grows _).continues hs hbefore
  obtain ⟨hs₂,named,htext₂,hnamed⟩ := (Halves.print_grows n place name).continues hs₁ hname
  obtain ⟨hs₃,parameters,htext₃,hlisted⟩ := parameterList_text hs₂ hparameters
  obtain ⟨hs₄,result,htext₄,hresult⟩ := (behindName_grows _).continues hs₃ hbehind
  obtain ⟨_,htext₅⟩ := (memberQualifiers_puts signature.cv signature.ref).known hs₄ hqualifiers
  have hempty : (∀ type, shownReturn config signature = some type → NoRightSide config place type) →
      result = "" := by
    intro hnone
    refine Asks.added ?_ hbehind htext₄
    cases hshown : shownReturn config signature with
    | none => exact .pure ()
    | some type => exact (hnone type hshown).asks
  rw [htext₁] at htext₂ hnamed
  rw [htext₂] at htext₃ hlisted
  rw [htext₃] at htext₄ hresult
  refine ⟨returned ++ named ++ "(" ++ parameters ++ ")" ++ result ++
    qualifierText signature.cv signature.ref,?_,returned,named,parameters,result,rfl,
      hreturned,hnamed,
    hlisted,hresult,hempty⟩
  rw [htext₅,htext₄]
  simp [String.append_assoc]

end

/-- Behind the parameters of a function type, and of a function with its parameter list, stands
what its return type has to its right, which is nothing if that has no right half, and behind
that stand the qualifiers. -/
theorem qualifiers_stand_behind_the_result (config : Config) (n : Nat) (place : Place) {s t : Sheet}
    (hs : s.Sound) :
    (∀ f : FunctionType Node, (Halves.levels config (n + 1)).right place
      (.functionType f) s = .ok () t →
      ∃ text, t.output.text = s.output.text ++ text ∧
        FunctionTypeText config n place f s.output.text text) ∧
    ∀ (name : Node) (signature : Signature Node), config.omitParameterList = false →
      (Halves.levels config (n + 1)).left place (.encoding ⟨name,some signature⟩) s = .ok () t →
      ∃ text, t.output.text = s.output.text ++ text ∧
        FunctionText config n (place.enter (templateArgsOf name)) name signature
        s.output.text text := by
  constructor
  · intro f hrun
    obtain ⟨_,s₁,hstep,hright⟩ := bind_ok hrun
    obtain ⟨hs₁,hsame⟩ := (@step_puts config).known hs hstep
    have htext := functionTypeRight_text hs₁ hright
    rwa [hsame,String.append_empty] at htext
  · intro name signature hlist hrun
    obtain ⟨_,s₁,hstep,hleft⟩ := bind_ok hrun
    obtain ⟨hs₁,hsame⟩ := (@step_puts config).known hs hstep
    have htext := function_text hlist hs₁ hleft
    rwa [hsame,String.append_empty] at htext

def plainFunction (type : Node) (parameters : List Node) (externC : Bool) : FunctionType Node :=
  ⟨type,parameters,{},none,none,externC,false⟩

def qualifiedFunction (type : Node) (parameters : List Node) (externC : Bool) (cv : CvQualifiers)
    (ref : Option ReferenceKind) (safe : Bool) : FunctionType Node :=
  ⟨type,parameters,cv,ref,none,externC,safe⟩

def functionPointer (f : FunctionType Node) : Node := .pointerType (.functionType f)

/-- A constant member function that returns a pointer to a function, `void (*())() const`. -/
def constFactory : FunctionType Node :=
  qualifiedFunction (functionPointer (plainFunction (.builtinType .void) [] false)) [] false
    { const := true } none false

theorem constFactory_right :
    textOf ((Halves.levels .standard 8).right {} (.functionType constFactory)) =
    some "())() const" := by decide +kernel

theorem qualifiers_stand_behind_the_result_const :
    ∃ t, (Halves.levels .standard 8).right {} (.functionType constFactory)
        (.blank .standard) = .ok () t ∧
      ∃ text, t.output.text = "" ++ text ∧
        FunctionTypeText .standard 7 {} constFactory "" text := by
  obtain ⟨t,hrun,_⟩ := textOf_eq constFactory_right
  exact ⟨t,hrun,(qualifiers_stand_behind_the_result .standard 7 {} (.blank .standard)).1 _ hrun⟩

/-- `void (*(*)())() const` is what either function is printed as, the qualified one or the one that
it returns, so qualifiers are not directly behind their own parameters. -/
theorem qualifiers_can_stand_apart :
    (demangle "_Z1fPKFPFvvEvE").toOption = some "f(void (*(*)())() const)" ∧
    (demangle "_Z1fPFPKFvvEvE").toOption = some "f(void (*(*)())() const)" ∧
    ¬∀ (config : Config) (n : Nat) (place : Place) (f : FunctionType Node) (s t : Sheet), s.Sound →
      (Halves.levels config (n + 1)).right place (.functionType f) s = .ok () t →
      ∃ parameters rest,
        Continues ((Halves.levels config n).printList place f.parameters) (s.output.text ++ "(")
          parameters ∧
        t.output.text =
          s.output.text ++ "(" ++ parameters ++ ")" ++ qualifierText f.cv f.ref ++ rest := by
  refine ⟨by decide +kernel,by decide +kernel,fun h => ?_⟩
  obtain ⟨t,hrun,htext⟩ := textOf_eq constFactory_right
  obtain ⟨parameters,rest,hlist,hread⟩ := h _ _ _ _ _ _ (.blank .standard) hrun
  rw [htext,hlist.empty (.pure ())] at hread
  have hchars := congrArg (fun text => (text.toList.drop 2).head?) hread
  simp [qualifierText,cvText,constFactory,qualifiedFunction,Sheet.blank,Output.text] at hchars

section
variable (config : Config) (place : Place) {f g : FunctionType Node}

theorem left_functionType (h : f.returnType = g.returnType) (n : Nat) :
    (Halves.levels config n).left place (.functionType f) =
      (Halves.levels config n).left place (.functionType g) := by
  cases n with
  | zero => rfl
  | succ n => simp only [Halves.levels,Halves.next,leftHalf,h]

theorem needsParentheses_functionType (f : FunctionType Node) :
    hasArray place (.functionType f) = .ok false ∧
    needsParentheses place (.functionType f) = .ok true := by
  have hseen :
      seenThrough place.packIndex place.scopes (.functionType f) = .ok (.functionType f) := by
    cases place.scopes <;> rfl
  unfold needsParentheses hasFunction hasArray
  rw [hseen]
  exact ⟨rfl,rfl⟩

theorem left_pointer_functionType (h : f.returnType = g.returnType) (n : Nat) :
    (Halves.levels config n).left place (.pointerType (.functionType f)) =
      (Halves.levels config n).left place (.pointerType (.functionType g)) := by
  cases n with
  | zero => rfl
  | succ n =>
    simp only [Halves.levels,Halves.next,leftHalf,indirectionLeft,needsParentheses_functionType,
      left_functionType config place h n]

theorem hasRightSide_pointer_functionType (f g : FunctionType Node) :
    hasRightSide config place (.pointerType (.functionType f)) =
      hasRightSide config place (.pointerType (.functionType g)) := by
  unfold hasRightSide
  cases place.scopes <;> rfl

/-- Left halves agree also where what is returned are pointers to such functions. -/
theorem left_returning {f' g' : FunctionType Node} (h : f.returnType = g.returnType)
    (hf : f'.returnType = .pointerType (.functionType f))
    (hg : g'.returnType = .pointerType (.functionType g)) (n : Nat) :
    (Halves.levels config n).left place (.functionType f') =
      (Halves.levels config n).left place (.functionType g') := by
  cases n with
  | zero => rfl
  | succ n =>
    simp only [Halves.levels,Halves.next,leftHalf,hf,hg,left_pointer_functionType config place h n,
      hasRightSide_pointer_functionType config place f g]

/-- The qualifiers of a function type, but for its exception specification. -/
def functionQualifiers (cv : CvQualifiers) (ref : Option ReferenceKind) (safe : Bool) :
    Printer Unit := do
  memberQualifiers cv ref
  if safe then write " transaction_safe"

theorem exhausted_bind (q : Unit → Printer Unit) :
    (do
      step config
      fail (.recursionLimitExceeded config.recursionLimit) >>= q) = (do
      step config
      fail (.recursionLimitExceeded config.recursionLimit)) := rfl

section
variable (type : Node) (parameters : List Node) (externC : Bool) (cv : CvQualifiers)
  (ref : Option ReferenceKind) (safe : Bool)

theorem functionTypeRight_plain (h : Halves) :
    functionTypeRight h place (plainFunction type parameters externC) = (do
      parameterList h place parameters
      h.right place type) := by
  have hnone : memberQualifiers {} none = pure () := rfl
  simp [functionTypeRight_parts,plainFunction,exceptionSpec,hnone]

theorem right_qualifiedFunction (n : Nat) :
    (Halves.levels config n).right place
        (.functionType (qualifiedFunction type parameters externC cv ref safe)) = (do
      (Halves.levels config n).right place (.functionType (plainFunction type parameters externC))
      functionQualifiers cv ref safe) := by
  cases n with
  | zero => simp only [Halves.levels,Halves.exhausted,bind_assoc,exhausted_bind]
  | succ n =>
    simp only [Halves.levels,Halves.next,rightHalf,functionTypeRight_plain,
      functionQualifiers,bind_assoc]
    simp only [functionTypeRight_parts,qualifiedFunction,exceptionSpec,pure_bind]

theorem right_pointer_qualifiedFunction (n : Nat) :
    (Halves.levels config n).right place
        (functionPointer (qualifiedFunction type parameters externC cv ref safe)) = (do
      (Halves.levels config n).right place (functionPointer (plainFunction type parameters externC))
      functionQualifiers cv ref safe) := by
  cases n with
  | zero => simp only [Halves.levels,Halves.exhausted,bind_assoc,exhausted_bind]
  | succ n =>
    simp only [functionPointer,Halves.levels,Halves.next,rightHalf,indirectionRight,
      needsParentheses_functionType,
      right_qualifiedFunction,ofExcept,pure_bind,if_true,bind_assoc]

/-- Whether the qualifiers are those of a function or those of the function that it returns
cannot be seen from the text. -/
theorem qualifiers_change_hands_unseen (n : Nat) (parameters' : List Node) (externC' : Bool) :
    (Halves.levels config n).print place (.functionType (qualifiedFunction
        (functionPointer (plainFunction type parameters' externC')) parameters externC
          cv ref safe)) =
      (Halves.levels config n).print place (.functionType (plainFunction
        (functionPointer (qualifiedFunction type parameters' externC' cv ref safe)) parameters
          externC)) := by
  have hleft : (Halves.levels config n).left place (.functionType (qualifiedFunction
        (functionPointer (plainFunction type parameters' externC')) parameters externC
          cv ref safe)) =
      (Halves.levels config n).left place (.functionType (plainFunction
        (functionPointer (qualifiedFunction type parameters' externC' cv ref safe)) parameters
          externC)) := by
    have hsame : (plainFunction type parameters' externC').returnType =
        (qualifiedFunction type parameters' externC' cv ref safe).returnType := rfl
    exact left_returning config place hsame rfl rfl n
  have hright : (Halves.levels config n).right place (.functionType (qualifiedFunction
        (functionPointer (plainFunction type parameters' externC')) parameters externC
          cv ref safe)) =
      (Halves.levels config n).right place (.functionType (plainFunction
        (functionPointer (qualifiedFunction type parameters' externC' cv ref safe)) parameters
          externC)) := by
    rw [right_qualifiedFunction]
    cases n with
    | zero => simp only [Halves.levels,Halves.exhausted,bind_assoc,exhausted_bind]
    | succ n =>
      simp only [Halves.levels,Halves.next,rightHalf,functionTypeRight_plain,
        right_pointer_qualifiedFunction,bind_assoc]
  unfold Halves.print
  rw [hleft,hright]

end

end

end Printing

end MangledNames
