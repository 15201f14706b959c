import MangledNames.Qualifier
import MangledNames.Proofs.Printing.TokenLists
set_option autoImplicit false

/-!
Declarators as tokens: the steps from a base type outwards, each in front of what encloses it or
behind it, and how the steps are found again.
-/

namespace MangledNames.Printing

/-- A step from a type to one that is made of it. The parameters of a function are known by their
tokens. -/
inductive Step where
  | pointer
  | reference (kind : ReferenceKind)
  | member (className : String)
  | qualified (cv : CvQualifiers)
  | array (size : Option Nat)
  | function (parameters : List (List Token))

def cvTokens (cv : CvQualifiers) : List Token :=
  (if cv.const then [.word "const".toList] else []) ++
    (if cv.volatile then [.word "volatile".toList] else []) ++
    if cv.restrict then [.word "restrict".toList] else []

def sizeTokens : Option Nat → List Token
  | none => []
  | some n => [.word (toString n).toList]

namespace Step

def tokens : Step → List Token
  | pointer => [.mark '*']
  | reference .lvalue => [.mark '&']
  | reference .rvalue => [.mark '&',.mark '&']
  | member className => [.word (className.toList ++ "::".toList),.mark '*']
  | qualified cv => cvTokens cv
  | array size => .mark '[' :: sizeTokens size ++ [.mark ']']
  | function parameters => .mark '(' :: listed parameters ++ [.mark ')']

/-- Arrays and functions stand behind what encloses them. -/
def isSuffix : Step → Bool
  | array _ | function _ => true
  | _ => false

/-- Signs bind weaker than what stands behind. -/
def isSign : Step → Bool
  | pointer | reference _ | member _ => true
  | _ => false

def lead : Step → Lead
  | pointer => .pointer
  | reference _ => .reference
  | member _ => .member
  | qualified _ => .word
  | array _ | function _ => .behind

def Proper : Step → Prop
  | qualified cv => cv.isEmpty = false
  | function parameters => ∀ item ∈ parameters, IsItem item
  | _ => True

theorem not_suffix_of_sign {step : Step} (h : step.isSign = true) : step.isSuffix = false := by
  cases step <;> first
    | rfl
    | cases h

theorem not_sign_of_suffix {step : Step} (h : step.isSuffix = true) : step.isSign = false := by
  cases step <;> first
    | rfl
    | cases h

theorem lead_of_suffix {step : Step} (h : step.isSuffix = true) : step.lead = .behind := by
  cases step <;> first
    | rfl
    | cases h

end Step

/-- Signs stand in parentheses where something stands behind them. -/
def enclosed (outer : List Step) (inner : List Token) : List Token :=
  if outer.head?.any Step.isSign then .mark '(' :: inner ++ [.mark ')'] else inner

/-- The steps of a declarator, the one next to the base first. -/
def declarator : List Step → List Token
  | [] => []
  | step :: outer =>
    if step.isSuffix then enclosed outer (declarator outer) ++ step.tokens
    else step.tokens ++ declarator outer

/-- The steps that may directly enclose a step: there are no references to references, and only
pointers are qualified. -/
def Follows (inner outer : Step) : Prop :=
  (outer.lead = .reference → inner.lead ≠ .reference) ∧
    (outer.lead = .word → inner.lead = .pointer ∨ inner.lead = .member)

/-- No qualifiers enclose an array or function. -/
theorem Follows.sign_or_suffix {inner outer : Step} (h : Follows inner outer)
    (hinner : inner.isSuffix = true) : outer.isSign = true ∨ outer.isSuffix = true := by
  cases outer with
  | qualified cv =>
    rcases h.2 rfl with hlead | hlead <;>
      · rw [Step.lead_of_suffix hinner] at hlead
        cases hlead
  | array | function => exact .inr rfl
  | _ => exact .inl rfl

/-- The steps from a base to some type. -/
structure Readable (steps : List Step) : Prop where
  proper : ∀ step ∈ steps, step.Proper
  follows : steps.IsChain Follows

theorem Readable.outer {step : Step} {outer : List Step} (h : Readable (step :: outer)) :
    Readable outer := ⟨fun x hx => h.proper x (.tail _ hx),h.follows.of_cons⟩

theorem Readable.first {step : Step} {outer : List Step} (h : Readable (step :: outer)) :
    step.Proper := h.proper step (.head _)

theorem Readable.next {step next : Step} {outer : List Step}
    (h : Readable (step :: next :: outer)) :
    Follows step next := by
  have hfollows := h.follows
  simp only [List.isChain_cons_cons] at hfollows
  exact hfollows.1

theorem Step.depth_tokens {step : Step} (h : step.Proper) : depth false 0 step.tokens = some 0 := by
  cases step with
  | pointer => rfl
  | reference kind => cases kind <;> rfl
  | member className => rfl
  | qualified cv =>
    obtain ⟨restrict,volatile,const⟩ := cv
    cases restrict <;> cases volatile <;> cases const <;> rfl
  | array size => cases size <;> rfl
  | function parameters => exact depth_parenthesized (depth_listed h)

theorem depth_enclosed (outer : List Step) {inner : List Token} (h : depth false 0 inner = some 0) :
    depth false 0 (enclosed outer inner) = some 0 := by
  unfold enclosed
  split
  · exact depth_parenthesized h
  · exact h

theorem depth_declarator {steps : List Step} (h : ∀ step ∈ steps, step.Proper) :
    depth false 0 (declarator steps) = some 0 := by
  induction steps with
  | nil => rfl
  | cons step outer ih =>
    rw [List.forall_mem_cons] at h
    have hstep := step.depth_tokens h.1
    have houter := ih h.2
    unfold declarator
    split
    · rw [depth_append,depth_enclosed outer houter]
      exact hstep
    · rw [depth_append,hstep]
      exact houter

theorem Step.lead?_tokens {step : Step} (h : step.Proper) : lead? step.tokens = some step.lead := by
  cases step with
  | pointer => rfl
  | reference kind => cases kind <;> rfl
  | member className => simp [lead?,Step.tokens,Token.lead,Step.lead]
  | qualified cv =>
    obtain ⟨restrict,volatile,const⟩ := cv
    cases restrict <;> cases volatile <;> cases const <;> first
      | decide
      | cases h
  | array size => rfl
  | function parameters => rfl

/-- The first token of a declarator tells its first step. -/
theorem lead?_declarator {step : Step} {outer : List Step} (h : Readable (step :: outer)) :
    lead? (declarator (step :: outer)) = some step.lead := by
  induction outer generalizing step with
  | nil =>
    unfold declarator
    simp [declarator,enclosed,step.lead?_tokens h.first]
  | cons next outer ih =>
    unfold declarator
    split
    · rename_i hsuffix
      refine lead?_append ?_
      rw [Step.lead_of_suffix hsuffix]
      unfold enclosed
      split
      · rfl
      · rename_i hplain
        have hnext := (h.next.sign_or_suffix hsuffix).resolve_left hplain
        rw [ih h.outer,Step.lead_of_suffix hnext]
    · exact lead?_append (step.lead?_tokens h.first)

section Peeling
variable {step step' : Step} {outer outer' : List Step}

/-- What stands in parentheses of its own is no declarator that ends with other ones. -/
theorem parenthesized_ne (h : Readable outer) (hsign : outer.head?.any Step.isSign = true)
    (h' : Readable (step' :: outer')) (hsuffix : step'.isSuffix = true)
    (hplain : outer'.head?.any Step.isSign = false) :
    .mark '(' :: declarator outer ++ [.mark ')'] ≠ declarator outer' := by
  intro heq
  cases outer' with
  | nil => cases heq
  | cons next rest =>
    have hnext := (h'.next.sign_or_suffix hsuffix).resolve_left (by simpa using hplain)
    rw [declarator,if_pos hnext] at heq
    cases next with
    | array size =>
      rw [Step.tokens,← List.append_assoc] at heq
      cases (List.append_inj' heq rfl).2
    | function parameters =>
      rw [Step.tokens,← List.append_assoc] at heq
      have hparameters := h'.outer.first
      have hinside := depth_commas (depth_declarator h.proper)
      have hlisted := (split_at_parenthesis (a := []) hinside (depth_listed hparameters)
        (List.append_inj' heq rfl).1).2
      -- a declarator starts with a sign, a list with a word
      cases outer with
      | nil => cases hsign
      | cons first outer =>
        have hlead := lead?_listed hparameters (hlisted ▸ lead?_declarator h)
        cases first <;> simp_all [Step.isSign,Step.lead]
    | _ => cases hnext

theorem enclosed_injective (h : Readable (step :: outer)) (hsuffix : step.isSuffix = true)
    (h' : Readable (step' :: outer')) (hsuffix' : step'.isSuffix = true)
    (heq : enclosed outer (declarator outer) = enclosed outer' (declarator outer')) :
    declarator outer = declarator outer' := by
  unfold enclosed at heq
  split at heq
  · rename_i hsign
    split at heq
    · exact (List.append_inj' (List.cons.inj heq).2 rfl).1
    · rename_i hplain
      exact absurd heq (parenthesized_ne h.outer hsign h' hsuffix' (by simpa using hplain))
  · rename_i hplain
    split at heq
    · rename_i hsign
      exact absurd heq.symm (parenthesized_ne h'.outer hsign h hsuffix (by simpa using hplain))
    · exact heq

theorem number_injective {n n' : Nat}
    (h : sizeTokens (some n) = sizeTokens (some n')) : n = n' := by
  have hdigits := Token.word.inj (List.cons.inj h).1
  change n.repr.toList = n'.repr.toList at hdigits
  rw [Nat.toList_repr,Nat.toList_repr] at hdigits
  have hvalue := congrArg (Nat.ofDigitChars 10 · 0) hdigits
  simpa [Nat.ofDigitChars_ten_toDigits] using hvalue

theorem array_injective {size size' : Option Nat} {inner inner' : List Token}
    (heq : inner ++ .mark '[' :: sizeTokens size = inner' ++ .mark '[' :: sizeTokens size') :
    inner = inner' ∧ size = size' := by
  cases size with
  | none =>
    cases size' with
    | none => exact ⟨(List.append_inj' heq rfl).1,rfl⟩
    | some n =>
      have hlast := (List.append_inj' (heq.trans (List.append_cons ..)) rfl).2
      cases hlast
  | some n =>
    cases size' with
    | none =>
      have hlast := (List.append_inj' (heq.symm.trans (List.append_cons ..)) rfl).2
      cases hlast
    | some n' =>
      obtain ⟨hinner,hnumber⟩ := List.append_inj' heq rfl
      exact ⟨hinner,congrArg some (number_injective (List.cons.inj hnumber).2)⟩

theorem suffix_injective (h : step.Proper) (hsuffix : step.isSuffix = true) (h' : step'.Proper)
    (hsuffix' : step'.isSuffix = true) {inner inner' : List Token}
    (heq : inner ++ step.tokens = inner' ++ step'.tokens) : inner = inner' ∧ step = step' := by
  cases step with
  | array size =>
    cases step' with
    | array size' =>
      simp only [Step.tokens,← List.append_assoc] at heq
      obtain ⟨hinner,hsize⟩ := array_injective (List.append_inj' heq rfl).1
      exact ⟨hinner,congrArg Step.array hsize⟩
    | function parameters =>
      simp only [Step.tokens,← List.append_assoc] at heq
      cases (List.append_inj' heq rfl).2
    | _ => cases hsuffix'
  | function parameters =>
    cases step' with
    | array size =>
      simp only [Step.tokens,← List.append_assoc] at heq
      cases (List.append_inj' heq rfl).2
    | function parameters' =>
      simp only [Step.tokens,← List.append_assoc] at heq
      obtain ⟨hinner,hlisted⟩ := split_at_parenthesis (depth_listed h) (depth_listed h')
        (List.append_inj' heq rfl).1
      exact ⟨hinner,congrArg Step.function (listed_injective h h' hlisted)⟩
    | _ => cases hsuffix'
  | _ => cases hsuffix

theorem lead_eq (h : Readable (step :: outer)) (h' : Readable (step' :: outer'))
    (heq : declarator (step :: outer) = declarator (step' :: outer')) : step.lead = step'.lead := by
  have hlead := lead?_declarator h
  rw [heq,lead?_declarator h'] at hlead
  exact (Option.some.inj hlead).symm

theorem lead?_outer {lead : Lead} (h : Readable (step :: outer))
    (hlead : lead? (declarator outer) = some lead) :
    ∃ next, Follows step next ∧ next.lead = lead := by
  cases outer with
  | nil => cases hlead
  | cons next outer =>
    rw [lead?_declarator h.outer] at hlead
    exact ⟨next,h.next,Option.some.inj hlead⟩

theorem cvTokens_injective {cv cv' : CvQualifiers} (h : cvTokens cv = cvTokens cv') : cv = cv' := by
  obtain ⟨restrict,volatile,const⟩ := cv
  obtain ⟨restrict',volatile',const'⟩ := cv'
  revert h
  revert restrict volatile const restrict' volatile' const'
  decide

theorem cvTokens_lead (cv : CvQualifiers) : ∀ token ∈ cvTokens cv, token.lead = .word := by
  obtain ⟨restrict,volatile,const⟩ := cv
  revert restrict volatile const
  decide

/-- Nothing behind the sign of a reference is mistaken for a part of it. -/
theorem outside_reference {kind : ReferenceKind} {rest : List Token}
    (h : Readable (.reference kind :: outer)) : declarator outer ≠ .mark '&' :: rest := by
  intro heq
  have hfirst : lead? (declarator outer) = some .reference := by
    rw [heq]
    rfl
  obtain ⟨next,hnext,hlead⟩ := lead?_outer h hfirst
  exact hnext.1 hlead rfl

theorem words_qualified {cv : CvQualifiers} (h : Readable (.qualified cv :: outer)) :
    (cvTokens cv ++ declarator outer).takeWhile (·.lead = .word) = cvTokens cv := by
  rw [List.takeWhile_append_of_pos (by simpa using cvTokens_lead cv)]
  cases hrest : declarator outer with
  | nil => simp
  | cons token rest =>
    have htoken : token.lead ≠ .word := by
      intro hword
      have hfirst : lead? (declarator outer) = some .word := by
        rw [hrest]
        exact congrArg some hword
      obtain ⟨next,hnext,hlead⟩ := lead?_outer h hfirst
      rcases hnext.2 hlead with hpointer | hmember
      · cases hpointer
      · cases hmember
    simp [htoken]

theorem prefix_injective (h : Readable (step :: outer)) (hfront : step.isSuffix = false)
    (h' : Readable (step' :: outer')) (hlead : step.lead = step'.lead)
    (heq : step.tokens ++ declarator outer = step'.tokens ++ declarator outer') :
    step = step' ∧ declarator outer = declarator outer' := by
  cases step with
  | pointer =>
    cases step' with
    | pointer => exact ⟨rfl,(List.cons.inj heq).2⟩
    | _ => cases hlead
  | reference kind =>
    cases step' with
    | reference kind' =>
      -- `&` in front of another `&` would be `&&`, but no reference is referred to.
      cases kind <;> cases kind'
      · exact ⟨rfl,(List.cons.inj heq).2⟩
      · exact absurd (List.cons.inj heq).2 (outside_reference h)
      · exact absurd (List.cons.inj heq).2.symm (outside_reference h')
      · exact ⟨rfl,(List.cons.inj (List.cons.inj heq).2).2⟩
    | _ => cases hlead
  | member className =>
    cases step' with
    | member className' =>
      obtain ⟨hname,hrest⟩ := List.cons.inj heq
      have hname := (List.append_inj' (Token.word.inj hname) rfl).1
      exact ⟨congrArg Step.member (String.toList_inj.mp hname),(List.cons.inj hrest).2⟩
    | _ => cases hlead
  | qualified cv =>
    cases step' with
    | qualified cv' =>
      have hcv : cvTokens cv = cvTokens cv' := by
        rw [← words_qualified h,← words_qualified h']
        exact congrArg _ heq
      obtain rfl := cvTokens_injective hcv
      exact ⟨rfl,List.append_cancel_left heq⟩
    | _ => cases hlead
  | _ => cases hfront

theorem declarator_peel (h : Readable (step :: outer)) (h' : Readable (step' :: outer'))
    (heq : declarator (step :: outer) = declarator (step' :: outer')) :
    step = step' ∧ declarator outer = declarator outer' := by
  have hlead := lead_eq h h' heq
  have hkind : step.isSuffix = step'.isSuffix := by
    cases step <;> cases step' <;> first
      | rfl
      | cases hlead
  unfold declarator at heq
  rw [← hkind] at heq
  split at heq
  · rename_i hsuffix
    obtain ⟨hinner,hstep⟩ := suffix_injective h.first hsuffix h'.first (hkind ▸ hsuffix) heq
    exact ⟨hstep,enclosed_injective h hsuffix h' (hkind ▸ hsuffix) hinner⟩
  · rename_i hfront
    exact prefix_injective h (by simpa using hfront) h' hlead heq

end Peeling

theorem declarator_injective {steps steps' : List Step} (h : Readable steps) (h' : Readable steps')
    (heq : declarator steps = declarator steps') : steps = steps' := by
  have nonempty : ∀ {step : Step} {outer : List Step}, Readable (step :: outer) →
      declarator (step :: outer) ≠ [] := by
    intro step outer h hnil
    have hlead := lead?_declarator h
    rw [hnil] at hlead
    cases hlead
  induction steps generalizing steps' with
  | nil =>
    cases steps' with
    | nil => rfl
    | cons step' outer' => exact absurd heq.symm (nonempty h')
  | cons step outer ih =>
    cases steps' with
    | nil => exact absurd heq (nonempty h)
    | cons step' outer' =>
      obtain ⟨hstep,houter⟩ := declarator_peel h h' heq
      rw [hstep,ih h.outer h'.outer houter]

end MangledNames.Printing
