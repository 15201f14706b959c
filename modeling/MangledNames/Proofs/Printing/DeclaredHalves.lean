import MangledNames.Printing.Halves
import MangledNames.Proofs.Printing.DeclaredTypes
import MangledNames.Proofs.Printing.Questions
import MangledNames.Proofs.Printing.Writing
set_option autoImplicit false

/-!
Declared types are printed as their tokens, each half as far as it goes.
-/

namespace MangledNames.Printing

/-- Whether a declarator around a type has to stand in parentheses. -/
def isBehind (t : Node) : Bool := isArray t || isFunction t

/-- The declarator that encloses a type, where the type leaves room for it. -/
def around (t : Node) (outer : List Step) : List Token :=
  if isBehind t then enclosed outer (declarator outer) else declarator outer

def opening (t : Node) : List Token := if isBehind t then [.mark '('] else []

def closing (t : Node) : List Token := if isBehind t then [.mark ')'] else []

/-- The left half of a type are its base and some tokens, the right half some more. What declares
stands between them. -/
structure Halved (config : Config) (t : Node) (l r : List Token) : Prop where
  between : ∀ outer, declarator (steps t ++ outer) = l ++ around t outer ++ r
  left : ∀ n, Writes ((Halves.levels config n).left {} t) (Spells (.word (baseName t) :: l))
  right : ∀ n, Writes ((Halves.levels config n).right {} t) (Adjoins r)

section
variable {config : Config} {q : Unit → List Char → Prop}

theorem writes_left {t : Node} (h : ∀ n, Writes (leftHalf config (Halves.levels config n) {} t) q)
    (n : Nat) : Writes ((Halves.levels config n).left {} t) q := by
  cases n with
  | zero => exact Writes.stepped fun _ => ⟨_,rfl,rfl⟩
  | succ n => exact Writes.stepped (h n)

theorem writes_right {t : Node} (h : ∀ n, Writes (rightHalf config (Halves.levels config n) {} t) q)
    (n : Nat) : Writes ((Halves.levels config n).right {} t) q := by
  cases n with
  | zero => exact Writes.stepped fun _ => ⟨_,rfl,rfl⟩
  | succ n => exact Writes.stepped (h n)

end

theorem Declared.seen {t : Node} (h : Declared t) :
    hasArray {} t = .ok (isArray t) ∧ needsParentheses {} t = .ok (isBehind t) := by
  cases h with
  | qualified h ht hcv => cases h <;> first
    | exact ⟨rfl,rfl⟩
    | cases ht
  | _ => exact ⟨rfl,rfl⟩

section
variable {config : Config} {t : Node} {l r : List Token}

theorem Halved.print (h : Halved config t l r) (n : Nat) :
    Writes ((Halves.levels config n).print {} t) (Spells (spelling t)) := by
  have hprint := (h.left n).adjoined (h.right n)
  have hbetween := h.between []
  have hnone : around t [] = [] := by simp [around,enclosed,declarator]
  rw [List.append_nil,hnone,List.append_nil] at hbetween
  rw [spelling,hbetween]
  exact hprint

theorem word_halved {t : Node} {name : String} (hbase : IsBase name.toList) (hsteps : steps t = [])
    (hname : baseName t = name.toList) (hbehind : isBehind t = false)
    (hleft : ∀ h : Halves, leftHalf config h {} t = write name)
    (hright : ∀ h : Halves, rightHalf config h {} t = pure ()) : Halved config t [] [] where
  between outer := by simp [hsteps,around,hbehind]
  left := by
    refine writes_left fun n => ?_
    rw [hleft]
    refine (Writes.write name).imp fun _ text htext => ?_
    rw [htext,hname]
    exact tokens_word hbase.chars hbase.nonempty
  right := by
    refine writes_right fun n => ?_
    rw [hright]
    exact .pure ⟨rfl,rfl⟩

/-- A sign stands in parentheses if the type goes on behind it. -/
theorem Halved.between_sign {u : Node} {step : Step} (h : Halved config t l r)
    (hsign : step.isSign = true) (hsteps : steps u = steps t ++ [step])
    (hbehind : isBehind u = false) (outer : List Step) : declarator (steps u ++ outer) =
      l ++ (opening t ++ step.tokens) ++ around u outer ++ (closing t ++ r) := by
  have hfront := Step.not_suffix_of_sign hsign
  rw [hsteps,List.append_assoc,List.singleton_append,h.between (step :: outer)]
  cases hneeded : isBehind t <;>
    simp [around,hneeded,hbehind,opening,closing,declarator,enclosed,hfront,hsign]

theorem Halved.between_suffix {u : Node} {step : Step} (h : Halved config t l r)
    (hsuffix : step.isSuffix = true) (hsteps : steps u = steps t ++ [step])
    (hbehind : isBehind u = true) (outer : List Step) : declarator (steps u ++ outer) =
      l ++ around u outer ++ (step.tokens ++ r) := by
  have hsign := Step.not_sign_of_suffix hsuffix
  rw [hsteps,List.append_assoc,List.singleton_append,h.between (step :: outer)]
  cases hneeded : isBehind t <;> simp [around,hneeded,hbehind,declarator,enclosed,hsuffix,hsign]

theorem indirectionLeft_writes {h : Halves} {sign : String} {ts : List Token} (ht : Declared t)
    (hleft : Writes (h.left {} t) (Spells (.word (baseName t) :: l)))
    (hsign : Breaks sign.toList ∧ tokens sign.toList = ts) :
    Writes (indirectionLeft h {} t sign)
      (Spells (.word (baseName t) :: l ++ (opening t ++ ts))) := by
  unfold indirectionLeft
  simp only [ht.seen,ofExcept,pure_bind]
  refine hleft.adjoined ?_
  have hblank : (if isArray t = true then [] else []) ++ (opening t ++ ts) = opening t ++ ts := by
    simp
  rw [← hblank]
  refine Writes.writeIf (by decide) ?_
  exact Writes.writeIf (by decide) (.literal hsign)

theorem indirectionRight_writes {h : Halves} (ht : Declared t)
    (hright : Writes (h.right {} t) (Adjoins r)) :
    Writes (indirectionRight h {} t) (Adjoins (closing t ++ r)) := by
  unfold indirectionRight
  simp only [ht.seen,ofExcept,pure_bind]
  exact Writes.writeIf (by decide) hright

theorem pointer_halved (ht : Declared t) (h : Halved config t l r) :
    Halved config (.pointerType t) (l ++ (opening t ++ Step.pointer.tokens)) (closing t ++ r) where
  between := h.between_sign rfl rfl rfl
  left := writes_left fun n => indirectionLeft_writes ht (h.left n) (by decide)
  right := writes_right fun n => indirectionRight_writes ht (h.right n)

theorem collapse_single (ht : Declared t) (hsingle : isReference t = false) (kind : ReferenceKind) :
    collapse config {} t kind = do
      step config
      return ⟨kind,t,[]⟩ := by
  cases ht <;> first
    | rfl
    | cases hsingle

theorem reference_halved (ht : Declared t) (hsingle : isReference t = false) (kind : ReferenceKind)
    (h : Halved config t l r) :
    Halved config (.referenceType t kind) (l ++ (opening t ++ (Step.reference kind).tokens))
      (closing t ++ r) where
  between := h.between_sign rfl rfl rfl
  left := writes_left fun n => by
    have hsign :
        Breaks kind.sign.toList ∧ tokens kind.sign.toList = (Step.reference kind).tokens := by
      cases kind <;> decide
    simp only [leftHalf,collapse_single ht hsingle,bind_assoc,pure_bind]
    exact .stepped (indirectionLeft_writes ht (h.left n) hsign)
  right := writes_right fun n => by
    simp only [rightHalf,collapse_single ht hsingle,bind_assoc,pure_bind]
    exact .stepped (indirectionRight_writes ht (h.right n))

theorem builtin_halved {type : BuiltinType} (h : type.OneWord) :
    Halved config (.builtinType type) [] [] :=
  word_halved (isBase_builtin h) rfl rfl rfl (fun _ => rfl) fun _ => rfl

theorem named_halved {name : String} (h : IsClassName name) :
    Halved config (.sourceName name) [] [] :=
  word_halved (isBase_className h) rfl rfl rfl (fun _ => rfl) fun _ => rfl

theorem member_writes {className : String} (hname : IsClassName className) (n : Nat) :
    Writes (do
      (Halves.levels config n).print {} (.sourceName className)
      write "::*") (Spells (Step.member className).tokens) := by
  have hleft : Writes ((Halves.levels config n).left {} (.sourceName className))
      fun _ text => text = className.toList := by
    refine writes_left (fun n => ?_) n
    exact Writes.write className
  have hright : Writes ((Halves.levels config n).right {} (.sourceName className))
      fun _ text => text = [] := by
    refine writes_right (fun n => ?_) n
    exact Writes.pure rfl
  have hprint : Writes ((Halves.levels config n).print {} (.sourceName className))
      fun _ text => text = className.toList :=
    hleft.bind fun _ text htext =>
      hright.imp fun _ rest hrest => by rw [htext,hrest,List.append_nil]
  refine hprint.bind fun _ text htext => (Writes.write "::*").imp fun _ rest hrest => ?_
  have hbase := isBase_className hname
  have hword :
      tokens (className.toList ++ "::".toList) = [.word (className.toList ++ "::".toList)] :=
    tokens_word (by rw [List.all_append,hbase.chars]; decide) (by simp)
  have hsplit : "::*".toList = "::".toList ++ "*".toList := by decide
  rw [htext,hrest,Spells,hsplit,← List.append_assoc,tokens_append (by decide),hword]
  rfl

theorem member_halved {className : String} (hname : IsClassName className) (ht : Declared t)
    (h : Halved config t l r) :
    Halved config (.pointerToMemberType (.sourceName className) t)
      (l ++ (opening t ++ (Step.member className).tokens)) (closing t ++ r) where
  between := h.between_sign rfl rfl rfl
  left := writes_left fun n => by
    simp only [leftHalf,ht.seen,ofExcept,pure_bind]
    refine (h.left n).adjoined (Writes.opening ?_ (member_writes hname n))
    unfold opening
    cases isBehind t <;> decide
  right := writes_right fun n => indirectionRight_writes ht (h.right n)

theorem writes_number (n : Nat) :
    Writes (write (toString n)) (Spells [.word (toString n).toList]) := by
  refine (Writes.write _).imp fun _ text htext => ?_
  have hdigits : (toString n).toList = Nat.toDigits 10 n := Nat.toList_repr
  rw [Spells,htext]
  refine tokens_word (List.all_eq_true.mpr fun c hc => ?_) ?_
  · rw [hdigits] at hc
    have hdigit := Nat.isDigit_of_mem_toDigits (by decide) (by decide) hc
    simp [isWordChar,Char.isAlphanum,hdigit]
  · rw [hdigits]
    exact Nat.toDigits_ne_nil

theorem bound_writes (h : Halves) (place : Place) (size : Option Nat) {n : Printer Unit}
    (hn : Writes n (Adjoins ([.mark ']'] ++ r))) :
    Writes (do
      if let some bound := size.map Dimension.size then dimension h place bound
      n) (Spells (sizeTokens size ++ ([.mark ']'] ++ r))) := by
  cases size with
  | none => exact hn.imp fun _ _ htext => htext.2
  | some k => exact (writes_number k).adjoined hn

theorem array_halved (size : Option Nat) (h : Halved config t l r) :
    Halved config (.arrayType t (size.map .size)) l ((Step.array size).tokens ++ r) where
  between := h.between_suffix rfl (steps_array t size) rfl
  left := writes_left h.left
  right := writes_right fun n => by
    have hclosed : Writes (do
        write "]"
        (Halves.levels config n).right {} t) (Adjoins ([.mark ']'] ++ r)) :=
      (Writes.literal (by decide)).and (h.right n)
    have hsize := bound_writes (Halves.levels config n) {} size hclosed
    have opened : ∀ {n : Printer Unit} {b : List Token}, Writes n (Spells b) →
        Writes (write "[" >>= fun _ => n) (Adjoins ([.mark '['] ++ b)) :=
      fun hn => hn.opening (by decide)
    have htokens : (Step.array size).tokens ++ r =
        [.mark '['] ++ (sizeTokens size ++ ([.mark ']'] ++ r)) := by simp [Step.tokens]
    rw [htokens]
    -- the blank is no token, whether it is written or not
    refine Writes.last.after fun c => ?_
    dsimp only
    split
    · exact opened hsize
    · exact Writes.and (a := []) (.literal (by decide)) (opened hsize)

theorem hasRightSide_writes (t : Node) :
    Writes (hasRightSide config {} t) fun _ text => text = [] := by
  refine Writes.stepped ?_
  change Writes (hasRightSideWithin config (fun _ => return false) t) _
  fun_induction hasRightSideWithin config (fun _ => return false) t with
  | case1 inner cv ih => exact ih
  | case2 inner qualifier arguments ih => exact ih
  | case3 index => exact Writes.pure rfl
  | case4 => exact Writes.pure rfl
  | case5 => exact Writes.pure rfl
  | case6 inner ih => exact Writes.stepped ih
  | case7 inner kind ih => exact Writes.stepped ih
  | case8 classType inner ih => exact Writes.stepped ih
  | case9 => exact Writes.pure rfl

theorem function_halved {parameters : List Node} (h : Halved config t l r)
    (hparameters : ∀ p ∈ parameters, ∃ l r, Halved config p l r) :
    Halved config (.functionType { returnType := t, parameters }) l
      ((Step.function (spellings parameters)).tokens ++ r) where
  between := h.between_suffix rfl rfl rfl
  left := writes_left fun n => by
    rw [← List.append_nil (Token.word _ :: l)]
    refine (h.left n).adjoined ?_
    refine (hasRightSide_writes t).after fun aside => ?_
    cases aside with
    | true => exact .pure ⟨rfl,rfl⟩
    | false => exact .literal (by decide)
  right := writes_right fun n => by
    have hitems :
      ∀ p ∈ parameters, Writes ((Halves.levels config n).print {} p) (Spells (spelling p)) ∧
        spelling p ≠ [] := by
      intro p hp
      obtain ⟨l,r,hhalved⟩ := hparameters p hp
      exact ⟨hhalved.print n,nofun⟩
    have hnothing : Writes (do
        cvQualifiers {}
        refQualifier none
        exceptionSpec (Halves.levels config n) {} none
        if false then write " transaction_safe") (Adjoins []) := Writes.pure ⟨rfl,rfl⟩
    have htokens : (Step.function (spellings parameters)).tokens ++ r =
        [.mark '('] ++ (listed (parameters.map spelling) ++ ([.mark ')'] ++ (r ++ []))) := by
      simp [Step.tokens,spellings_eq_map]
    rw [htokens]
    refine Writes.opening (by decide) ((Writes.list hitems).adjoined ?_)
    exact (Writes.literal (by decide)).and ((h.right n).and hnothing)

theorem cvQualifiers_writes (cv : CvQualifiers) :
    Writes (cvQualifiers cv) (Adjoins (cvTokens cv)) := by
  unfold cvQualifiers cvTokens
  rw [List.append_assoc]
  refine Writes.writeIf (by decide) (Writes.writeIf (by decide) ?_)
  split
  · exact .literal (by decide)
  · exact .pure ⟨rfl,rfl⟩

theorem qualified_halved {cv : CvQualifiers} (ht : isQualifiable t = true)
    (h : Halved config t l r) :
    Halved config (.qualifiedType t cv) (l ++ cvTokens cv) r where
  between outer := by
    have hbehind : isBehind t = false := by
      cases t <;> first
        | rfl
        | cases ht
    rw [steps,List.append_assoc,List.singleton_append,h.between (.qualified cv :: outer)]
    have houter : isBehind (.qualifiedType t cv) = false := rfl
    simp [around,hbehind,houter,declarator,Step.isSuffix,Step.tokens]
  left := writes_left fun n => (h.left n).adjoined (cvQualifiers_writes cv)
  right := writes_right h.right

/-- Whatever declares stands between the halves of a declared type. -/
theorem Declared.halved {t : Node} (h : Declared t) (config : Config) :
    ∃ l r, Halved config t l r := by
  induction h with
  | builtin h => exact ⟨_,_,builtin_halved h⟩
  | named h => exact ⟨_,_,named_halved h⟩
  | pointer h ih =>
    obtain ⟨l,r,ih⟩ := ih
    exact ⟨_,_,pointer_halved h ih⟩
  | reference kind h hsingle ih =>
    obtain ⟨l,r,ih⟩ := ih
    exact ⟨_,_,reference_halved h hsingle kind ih⟩
  | array size h ih =>
    obtain ⟨l,r,ih⟩ := ih
    exact ⟨_,_,array_halved size ih⟩
  | member hname h ih =>
    obtain ⟨l,r,ih⟩ := ih
    exact ⟨_,_,member_halved hname h ih⟩
  | function h hparameters ih ihparameters =>
    obtain ⟨l,r,ih⟩ := ih
    exact ⟨_,_,function_halved ih ihparameters⟩
  | qualified h ht hcv ih =>
    obtain ⟨l,r,ih⟩ := ih
    exact ⟨_,_,qualified_halved ht ih⟩

end

end MangledNames.Printing
