import Mathlib.Data.List.Basic
import MangledNames.Proofs.Printing.Tokens
set_option autoImplicit false

/-!
Tokens in parentheses and between commas: where what stands there ends, and what it starts with.
-/

namespace MangledNames.Printing

section Nesting

/-- How deep in parentheses one is behind a token. Commas outside of all of them may not be
expected. -/
def Token.depth (commas : Bool) (d : Nat) : Token → Option Nat
  | .mark '(' => some (d + 1)
  | .mark ')' => if d = 0 then none else some (d - 1)
  | .mark ',' => if commas ∨ 0 < d then some d else none
  | _ => some d

def depth (commas : Bool) (d : Nat) (tokens : List Token) : Option Nat :=
  tokens.foldlM (Token.depth commas) d

variable {commas : Bool} {d k : Nat}

@[simp] theorem depth_nil : depth commas d [] = some d := rfl

@[simp] theorem depth_cons (token : Token) (tokens : List Token) :
    depth commas d (token :: tokens) = (token.depth commas d).bind (depth commas · tokens) := rfl

@[simp] theorem depth_append (a b : List Token) :
    depth commas d (a ++ b) = (depth commas d a).bind (depth commas · b) := List.foldlM_append

/-- Further parentheses around do not matter, and allow for commas. -/
theorem Token.depth_frame {commas' : Bool} {e : Nat}
    (hcommas : commas = true → commas' = true ∨ 0 < e) {token : Token}
    (h : token.depth commas d = some k) : token.depth commas' (d + e) = some (k + e) := by
  unfold Token.depth at h ⊢
  split at h
  · cases h
    grind
  · split at h
    · cases h
    · cases h
      grind
  · split at h
    · cases h
      grind
    · cases h
  · cases h
    grind

theorem depth_frame {commas' : Bool} {e : Nat} (hcommas : commas = true → commas' = true ∨ 0 < e)
    {tokens : List Token} (h : depth commas d tokens = some k) :
    depth commas' (d + e) tokens = some (k + e) := by
  induction tokens generalizing d with
  | nil =>
    cases h
    rfl
  | cons token tokens ih =>
    rw [depth_cons,Option.bind_eq_some_iff] at h
    obtain ⟨d',htoken,hrest⟩ := h
    rw [depth_cons,Token.depth_frame hcommas htoken]
    exact ih hrest

/-- Commas are not missed where they are expected. -/
theorem depth_commas {tokens : List Token} (h : depth false d tokens = some k) :
    depth true d tokens = some k := depth_frame (e := 0) (fun _ => .inl rfl) h

theorem depth_parenthesized {tokens : List Token} (h : depth commas 0 tokens = some 0) :
    depth false 0 (.mark '(' :: tokens ++ [.mark ')']) = some 0 := by
  have hinside : depth false (0 + 1) tokens = some (0 + 1) :=
    depth_frame (fun _ => .inr Nat.one_pos) h
  simp_all [Token.depth]

/-- Where a text falls into two, unless one of the first parts goes on. -/
theorem split_unique {a a' b b' : List Token} (heq : a ++ b = a' ++ b')
    (h : ∀ {token : Token} {between : List Token}, a' = a ++ token :: between →
      b ≠ token :: between ++ b')
    (h' : ∀ {token : Token} {between : List Token}, a = a' ++ token :: between →
      b' ≠ token :: between ++ b) : a = a' ∧ b = b' := by
  rcases List.append_eq_append_iff.mp heq with ⟨between,hfront,hback⟩ | ⟨between,hfront,hback⟩
  · cases between with
    | nil => exact ⟨by simp [hfront],hback⟩
    | cons token between => exact absurd hback (h hfront)
  · cases between with
    | nil => exact ⟨by simp [hfront],hback.symm⟩
    | cons token between => exact absurd hback (h' hfront)

/-- What stands in parentheses has none of them left open. -/
theorem split_at_parenthesis {a a' b b' : List Token} (hb : depth true 0 b = some 0)
    (hb' : depth true 0 b' = some 0) (h : a ++ .mark '(' :: b = a' ++ .mark '(' :: b') :
    a = a' ∧ b = b' := by
  have stays_open :
    ∀ {token : Token} {between back back' : List Token}, depth true 0 back = some 0 →
      depth true 0 back' = some 0 →
      .mark '(' :: back ≠ token :: between ++ .mark '(' :: back' := by
    intro token between back back' hback hback' heq
    obtain rfl : back = between ++ .mark '(' :: back' := (List.cons.inj heq).2
    rw [depth_append,Option.bind_eq_some_iff] at hback
    obtain ⟨k,_,hrest⟩ := hback
    have hframe : depth true (0 + (k + 1)) back' = some (0 + (k + 1)) :=
      depth_frame (fun _ => .inl rfl) hback'
    simp [Token.depth] at hrest hframe
    simp [hrest] at hframe
  obtain ⟨hfront,hback⟩ := split_unique h (fun _ => stays_open hb hb') fun _ => stays_open hb' hb
  exact ⟨hfront,(List.cons.inj hback).2⟩

end Nesting

/-- What a token tells of the step that it starts. -/
inductive Lead where
  | pointer
  | reference
  | member
  | word
  | behind
  | other
  deriving DecidableEq

def Token.lead : Token → Lead
  | .word text => if text.getLast? = some ':' then .member else .word
  | .mark '*' => .pointer
  | .mark '&' => .reference
  | .mark '(' | .mark '[' => .behind
  | .mark _ => .other

def lead? (tokens : List Token) : Option Lead := tokens.head?.map Token.lead

/-- The tokens of a type that may stand in a list. -/
structure IsItem (item : List Token) : Prop where
  depth : depth false 0 item = some 0
  lead : lead? item = some .word

theorem lead?_append {a b : List Token} {lead : Lead} (h : lead? a = some lead) :
    lead? (a ++ b) = some lead := by
  cases a with
  | nil => cases h
  | cons token a => exact h

def furtherItems (items : List (List Token)) : List Token := items.flatMap (.mark ',' :: ·)

def listed : List (List Token) → List Token
  | [] => []
  | item :: items => item ++ furtherItems items

section
variable {items items' : List (List Token)}

theorem depth_furtherItems (h : ∀ item ∈ items, IsItem item) :
    depth true 0 (furtherItems items) = some 0 := by
  induction items with
  | nil => rfl
  | cons item items ih =>
    rw [List.forall_mem_cons] at h
    have hitem := depth_commas h.1.depth
    have hitems := ih h.2
    unfold furtherItems at hitems ⊢
    simp only [List.flatMap_cons,List.cons_append,depth_cons,depth_append]
    simp_all [Token.depth]

theorem depth_listed (h : ∀ item ∈ items, IsItem item) :
    depth true 0 (listed items) = some 0 := by
  cases items with
  | nil => rfl
  | cons item items =>
    rw [List.forall_mem_cons] at h
    simp [listed,depth_commas h.1.depth,depth_furtherItems h.2]

/-- An item ends where a further one or nothing follows. -/
theorem split_at_comma {item item' : List Token} (h : IsItem item) (h' : IsItem item')
    (heq : item ++ furtherItems items = item' ++ furtherItems items') :
    item = item' ∧ furtherItems items = furtherItems items' := by
  have no_comma :
    ∀ {front longer between back : List Token} {more : List (List Token)} {token : Token},
      IsItem front → IsItem longer → longer = front ++ token :: between →
      furtherItems more ≠ token :: between ++ back := by
    intro front longer between back more token hfront hlonger hsplit hmore
    cases more with
    | nil => cases hmore
    | cons next more =>
      obtain ⟨rfl,_⟩ := List.cons.inj hmore
      have hdepth := hlonger.depth
      rw [hsplit,depth_append,hfront.depth] at hdepth
      simp [Token.depth] at hdepth
  exact split_unique heq (no_comma h h') (no_comma h' h)

theorem furtherItems_injective (h : ∀ item ∈ items, IsItem item)
    (h' : ∀ item ∈ items', IsItem item) (heq : furtherItems items = furtherItems items') :
    items = items' := by
  induction items generalizing items' with
  | nil =>
    cases items' with
    | nil => rfl
    | cons item items' => cases heq
  | cons item items ih =>
    cases items' with
    | nil => cases heq
    | cons item' items' =>
      rw [List.forall_mem_cons] at h h'
      obtain ⟨hitem,hitems⟩ := split_at_comma h.1 h'.1 (List.cons.inj heq).2
      rw [hitem,ih h.2 h'.2 hitems]

theorem lead?_listed (h : ∀ item ∈ items, IsItem item) {lead : Lead}
    (hlead : lead? (listed items) = some lead) : lead = .word := by
  cases items with
  | nil => cases hlead
  | cons item items =>
    rw [listed,lead?_append (h item (.head _)).lead] at hlead
    exact (Option.some.inj hlead).symm

theorem listed_injective (h : ∀ item ∈ items, IsItem item)
    (h' : ∀ item ∈ items', IsItem item) (heq : listed items = listed items') : items = items' := by
  have nonempty : ∀ {item : List Token} {items : List (List Token)}, IsItem item →
      listed (item :: items) ≠ [] := by
    intro item items hitem hnil
    have hlead := lead?_append (b := furtherItems items) hitem.lead
    rw [← listed,hnil] at hlead
    cases hlead
  cases items with
  | nil =>
    cases items' with
    | nil => rfl
    | cons item items' => exact absurd heq.symm (nonempty (h' item (.head _)))
  | cons item items =>
    cases items' with
    | nil => exact absurd heq (nonempty (h item (.head _)))
    | cons item' items' =>
      rw [List.forall_mem_cons] at h h'
      obtain ⟨hitem,hitems⟩ := split_at_comma h.1 h'.1 heq
      rw [hitem,furtherItems_injective h.2 h'.2 hitems]

end

end MangledNames.Printing
