import Mathlib.Data.List.Forall2
import MangledNames.Proofs.Run
import MangledNames.Printing.Render
set_option autoImplicit false

/-!
Printing twice: what two configurations have to agree on for whatever is printed to come out alike,
and that what is asked of template parameters on the way is then answered alike.
-/

namespace MangledNames.Printing

/-- A way for runs of two printers to be alike that goes on from run to run. -/
structure Likeness where
  Holds : ∀ {α β : Type}, (α → β → Prop) → Printer α → Printer β → Prop
  protected pure : ∀ {α β : Type} {v : α → β → Prop} {a : α} {b : β}, v a b →
    Holds v (Pure.pure a) (Pure.pure b)
  protected bind : ∀ {α β γ δ : Type} {v : α → β → Prop} {w : γ → δ → Prop} {m : Printer α}
    {n : Printer β} {q : α → Printer γ} {r : β → Printer δ}, Holds v m n →
    (∀ a b, v a b → Holds w (q a) (r b)) → Holds w (m >>= q) (n >>= r)

namespace Likeness

variable {α β γ δ : Type} (L : Likeness)

abbrev Alike (m n : Printer α) : Prop := L.Holds Eq m n

/-- Runs that fail like this are alike, whatever they were to come to. -/
def Throws (f g : Fault) : Prop :=
  ∀ {α β : Type} (v : α → β → Prop), L.Holds v (throw f : Printer α) (throw g : Printer β)

variable {L} {v : α → β → Prop} {w : γ → δ → Prop} {m : Printer α} {n : Printer β}

theorem Holds.pure {a : α} {b : β} (h : v a b) : L.Holds v (Pure.pure a) (Pure.pure b) := L.pure h

theorem Holds.bind {q : α → Printer γ} {r : β → Printer δ} (h : L.Holds v m n)
    (hq : ∀ a b, v a b → L.Holds w (q a) (r b)) : L.Holds w (m >>= q) (n >>= r) :=
  L.bind h hq

theorem Holds.imp {u : α → β → Prop} (h : L.Holds v m n) (hv : ∀ a b, v a b → u a b) :
    L.Holds u m n := by
  rw [← bind_pure m,← bind_pure n]
  exact h.bind fun _ _ hab => .pure (hv _ _ hab)

theorem Holds.ite {c : Prop} [Decidable c] {m₁ m₂ : Printer α} {n₁ n₂ : Printer β}
    (h₁ : c → L.Holds v m₁ n₁) (h₂ : ¬c → L.Holds v m₂ n₂) :
    L.Holds v (if c then m₁ else m₂) (if c then n₁ else n₂) := by
  by_cases h : c
  · rw [if_pos h,if_pos h]
    exact h₁ h
  · rw [if_neg h,if_neg h]
    exact h₂ h

theorem Alike.bind {m n : Printer α} {q r : α → Printer γ} (h : L.Alike m n)
    (hq : ∀ a, L.Alike (q a) (r a)) : L.Alike (m >>= q) (n >>= r) :=
  Holds.bind h fun a _ hab => hab ▸ hq a

variable {c : Prop} [Decidable c] {check check' : Printer PUnit} {next next' : PUnit → Printer γ}

theorem Holds.guard (h : L.Alike check check') (hnext : L.Alike (next ⟨⟩) (next' ⟨⟩)) :
    L.Alike (if c then check >>= next else next ⟨⟩) (if c then check' >>= next' else next' ⟨⟩) :=
  Holds.ite (fun _ => h.bind fun _ => hnext) fun _ => hnext

theorem Holds.guardNot (h : L.Alike check check') (hnext : L.Alike (next ⟨⟩) (next' ⟨⟩)) :
    L.Alike (if c then next ⟨⟩ else check >>= next) (if c then next' ⟨⟩ else check' >>= next') :=
  Holds.ite (fun _ => hnext) fun _ => h.bind fun _ => hnext

end Likeness

/-- What two runs on sheets have in common is kept from run to run. -/
def likenessOf (S : Simulation Sheet Sheet) : Likeness where
  Holds := S.Holds
  pure := Simulation.Holds.pure
  bind := Simulation.Holds.bind

instance : Coe (Simulation Sheet Sheet) Likeness := ⟨likenessOf⟩

theorem throws_of_faults {S : Simulation Sheet Sheet} {f g : Fault} (h : S.faults f g) :
    (likenessOf S).Throws f g := fun _ => Simulation.Holds.throw h

open Likeness

/-- Two configurations under which everything that is written comes to the same. -/
structure Parallel (L : Likeness) (config config' : Config) : Prop where
  broken : ∀ promise, L.Throws (.broken promise) (.broken promise)
  step : L.Alike (step config) (step config')
  write : ∀ text, L.Alike (write text) (write text)
  suffixed : ∀ value suffix,
    L.Alike (Printing.write (value ++ cased config suffix))
      (Printing.write (value ++ cased config' suffix))
  expanded : ∀ name : StandardName, L.Alike
    (Printing.write (name.expandedText config.closingAngleSpace))
    (Printing.write (name.expandedText config'.closingAngleSpace))
  closing : L.Alike
    (do
      if config.closingAngleSpace && (← last) == some '>' then Printing.write " "
      Printing.write ">")
    (do
      if config'.closingAngleSpace && (← last) == some '>' then Printing.write " "
      Printing.write ">")
  /-- A bound, which stands apart unless it follows another one. -/
  bound : ∀ {m m' : Printer Unit}, L.Alike m m' → L.Alike
    (do
      unless (← last) == some ']' do Printing.write " "
      Printing.write "["
      m)
    (do
      unless (← last) == some ']' do Printing.write " "
      Printing.write "["
      m')
  list : ∀ {α β : Type} {print : α → Printer Unit} {print' : β → Printer Unit} {items : List α}
    {items' : List β}, List.Forall₂ (fun a b => L.Alike (print a) (print' b)) items items' →
    L.Alike (list print items) (list print' items')

section
variable {L : Likeness} {config config' : Config} (P : Parallel L config config')
include P

theorem write_then_alike {α : Type} {m m' : Printer α} (text : String) (h : L.Alike m m') :
    L.Alike (write text >>= fun _ => m) (write text >>= fun _ => m') :=
  (P.write text).bind fun _ => h

theorem step_then_alike {α : Type} {m m' : Printer α} (h : L.Alike m m') :
    L.Alike (step config >>= fun _ => m) (step config' >>= fun _ => m') :=
  P.step.bind fun _ => h

theorem writeIf_alike (c : Prop) [Decidable c] (text : String) :
    L.Alike (if c then write text else pure ()) (if c then write text else pure ()) :=
  Holds.ite (fun _ => P.write text) fun _ => Holds.pure rfl

theorem writeIf_then_alike {α : Type} (c : Prop) [Decidable c] (text : String)
    {q q' : Unit → Printer α} (h : L.Alike (q ()) (q' ())) :
    L.Alike (if c then write text >>= q else q ()) (if c then write text >>= q' else q' ()) :=
  Holds.guard (P.write text) h

theorem writeUnless_then_alike {α : Type} (c : Prop) [Decidable c] (text : String)
    {q q' : Unit → Printer α} (h : L.Alike (q ()) (q' ())) :
    L.Alike (if c then q () else write text >>= q) (if c then q' () else write text >>= q') :=
  Holds.guardNot (P.write text) h

theorem cvQualifiers_alike (cv : CvQualifiers) : L.Alike (cvQualifiers cv) (cvQualifiers cv) := by
  unfold cvQualifiers
  exact writeIf_then_alike P _ _ (writeIf_then_alike P _ _ (writeIf_alike P _ _))

theorem refQualifier_alike (ref : Option ReferenceKind) :
    L.Alike (refQualifier ref) (refQualifier ref) := by
  cases ref with
  | none => exact Holds.pure rfl
  | some kind => exact P.write _

theorem abiTags_alike (tags : List String) : L.Alike (abiTags tags) (abiTags tags) := by
  induction tags with
  | nil => exact Holds.pure rfl
  | cons tag tags ih => exact write_then_alike P _ ih

theorem hasRightSideWithin_alike {parameter parameter' : Nat → Printer Bool}
    (h : ∀ index, L.Alike (parameter index) (parameter' index)) (node : Node) :
    L.Alike (hasRightSideWithin config parameter node)
      (hasRightSideWithin config' parameter' node) := by
  fun_induction hasRightSideWithin config parameter node with
  | case1 inner cv ih => exact ih
  | case2 inner qualifier arguments ih => exact ih
  | case3 index => exact h index
  | case4 => exact Holds.pure rfl
  | case5 => exact Holds.pure rfl
  | case6 inner ih => exact step_then_alike P ih
  | case7 inner kind ih => exact step_then_alike P ih
  | case8 classType inner ih => exact step_then_alike P ih
  | case9 node =>
    rw [hasRightSideWithin]
    · exact Holds.pure rfl
    all_goals assumption

theorem collapseWithin_alike (scopes : Scopes)
    {parameter parameter' : ReferenceKind → Nat → Printer Collapsed}
    (h : ∀ kind index, L.Alike (parameter kind index) (parameter' kind index))
    (kind : ReferenceKind) (node : Node) :
    L.Alike (collapseWithin config scopes parameter kind node)
      (collapseWithin config' scopes parameter' kind node) := by
  fun_induction collapseWithin config scopes parameter kind node with
  | case1 kind referent inner ih => exact step_then_alike P ih
  | case2 kind index => exact step_then_alike P (h kind index)
  | case3 kind node hreference hparameter =>
    rw [collapseWithin]
    · exact step_then_alike P (Holds.pure rfl)
    all_goals assumption

theorem packSize_alike (place : Place) (pattern : Node) :
    L.Alike (packSize config place pattern) (packSize config' place pattern) := by
  have among : ∀ nodes, L.Alike (packSizeAmong config place nodes)
      (packSizeAmong config' place nodes) := by
    intro nodes
    fun_induction packSizeAmong config place nodes with
    | case1 =>
      rw [packSizeAmong]
      exact Holds.pure rfl
    | case2 node others ih =>
      rw [packSizeAmong.eq_def config' place (node :: others)]
      refine step_then_alike P ?_
      revert ih
      split
      · intro ih
        split
        · exact Holds.pure rfl
        · exact ih
      · exact id
      · exact id
      · exact id
  exact among _

end

section
variable {L : Likeness} {config config' : Config} (P : Parallel L config config')
  (herrors : ∀ error, L.Throws (.error error) (.error error))
include herrors

/-- What fails on both sides fails alike. -/
theorem ofExcept_alike {α : Type} (found : Except DemangleError α) :
    L.Alike (ofExcept found) (ofExcept found) := by
  cases found with
  | ok a => exact Holds.pure rfl
  | error error => exact herrors error _

include P

theorem hasRightSideIn_alike (packIndex : Option Nat) (scopes : Scopes) (node : Node) :
    L.Alike (hasRightSideIn config packIndex scopes node)
      (hasRightSideIn config' packIndex scopes node) := by
  induction scopes generalizing node with
  | nil => exact hasRightSideWithin_alike P (fun _ => Holds.pure rfl) node
  | cons arguments outer ih =>
    refine hasRightSideWithin_alike P (fun index => ?_) node
    cases arguments[index]? with
    | none => exact Holds.pure rfl
    | some argument => exact (ofExcept_alike herrors _).bind ih

theorem hasRightSide_alike (place : Place) (node : Node) :
    L.Alike (hasRightSide config place node) (hasRightSide config' place node) :=
  step_then_alike P (hasRightSideIn_alike P herrors _ _ node)

theorem collapse_alike (place : Place) (referent : Node) (kind : ReferenceKind) :
    L.Alike (collapse config place referent kind) (collapse config' place referent kind) := by
  unfold collapse
  generalize place.scopes = scopes
  induction scopes generalizing referent kind with
  | nil => exact collapseWithin_alike P [] (fun _ _ => Holds.pure rfl) kind referent
  | cons arguments outer ih =>
    refine collapseWithin_alike P (arguments :: outer) (fun kind index => ?_) kind referent
    cases arguments[index]? with
    | none => exact Holds.pure rfl
    | some argument =>
      refine (ofExcept_alike herrors _).bind fun found => ?_
      split
      · exact ih _ kind
      · exact Holds.pure rfl

end

/-- Where options spell everything alike, what is written, looked back at and listed decides about
the rest. -/
theorem parallel_of_writing {L : Likeness} {config config' : Config}
    (hcase : config.literalCase = config'.literalCase)
    (hspace : config.closingAngleSpace = config'.closingAngleSpace)
    (hbroken : ∀ promise, L.Throws (.broken promise) (.broken promise))
    (hstep : L.Alike (step config) (step config'))
    (hwrite : ∀ text, L.Alike (write text) (write text)) (hlast : L.Alike last last)
    (hlist : ∀ {α β : Type} {print : α → Printer Unit} {print' : β → Printer Unit}
      {items : List α} {items' : List β},
      List.Forall₂ (fun a b => L.Alike (print a) (print' b)) items items' →
      L.Alike (list print items) (list print' items')) : Parallel L config config' where
  broken := hbroken
  step := hstep
  write := hwrite
  suffixed value suffix := by
    have hcased : cased config suffix = cased config' suffix := by
      unfold cased
      rw [hcase]
    rw [hcased]
    exact hwrite _
  expanded name := by
    rw [hspace]
    exact hwrite _
  closing := by
    rw [hspace]
    exact Alike.bind hlast fun _ => Holds.guard (hwrite " ") (hwrite ">")
  bound hrest := Alike.bind hlast fun _ =>
    Holds.guardNot (hwrite " ") (Alike.bind (hwrite "[") fun _ => hrest)
  list := hlist

end MangledNames.Printing
