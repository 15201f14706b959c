import Mathlib.Data.List.Basic
import Mathlib.Data.String.Basic
set_option autoImplicit false

/-!
What stands on either side of the commas in a text, and what is known of the text from its ends when
it is put together with others.
-/

namespace MangledNames.Printing

abbrev comma : List Char := [',',' ']

/-- The comma that follows belongs to `operator,`. -/
def NamesOperator (before : List Char) : Prop := "operator".toList <:+ before

/-- A text that no bracket is opened by at its end: `<` only ends an operator there. -/
structure EndsClosed (text : List Char) : Prop where
  bracket : ∀ c ∈ text.getLast?, c ∉ ['(','[','\x7b']
  angle : '<' ∈ text.getLast? → "operator<".toList <:+ text ∨ "operator<<".toList <:+ text

/-- A text that closes no bracket at its start. -/
def StartsOpen (text : List Char) : Prop := ∀ c ∈ text.head?, c ∉ [')','>',']','\x7d']

instance (text : List Char) : Decidable (StartsOpen text) :=
  decidable_of_iff (text.head?.all (· ∉ [')','>',']','\x7d']) = true)
    (by simp [StartsOpen,Option.all_eq_true])

structure MayPrecedeComma (before : List Char) : Prop where
  nonempty : before ≠ []
  closed : EndsClosed before
  single : ∀ first, before = first ++ comma → NamesOperator first

structure MayFollowComma (after : List Char) : Prop where
  nonempty : after ≠ []
  opened : StartsOpen after
  single : ¬comma <+: after

/-- Every comma that separates anything has something on both sides: it follows no bracket
that is opened and no other comma, and stands before no bracket that is closed, no other
comma and not at the end. -/
def Separated (text : List Char) : Prop :=
  ∀ before after, text = before ++ (comma ++ after) →
    NamesOperator before ∨ MayPrecedeComma before ∧ MayFollowComma after

/-- A text that other texts can follow. -/
structure Tame (text : List Char) : Prop where
  separated : Separated text
  last : ∀ before, text = before ++ [','] → NamesOperator before

section
variable {u v before after text : List Char}

theorem NamesOperator.append (h : NamesOperator v) (u : List Char) : NamesOperator (u ++ v) :=
  List.IsSuffix.trans h (List.suffix_append u v)

theorem namesOperator_concat {c : Char} (h : NamesOperator (before ++ [c])) : c = 'r' := by
  obtain ⟨first,hfirst⟩ := h
  have hlast := congrArg List.getLast? hfirst
  simpa [eq_comm] using hlast

theorem StartsOpen.append (hu : StartsOpen u) (hv : u = [] → StartsOpen v) :
    StartsOpen (u ++ v) := by
  cases u with
  | nil => exact hv rfl
  | cons c u => exact hu

theorem EndsClosed.append (hu : v = [] → EndsClosed u) (hv : EndsClosed v) :
    EndsClosed (u ++ v) := by
  by_cases hnone : v = []
  · rw [hnone,List.append_nil]
    exact hu hnone
  · have hlast : (u ++ v).getLast? = v.getLast? := List.getLast?_append_of_ne_nil u hnone
    refine ⟨?_,fun hangle => ?_⟩
    · rw [hlast]
      exact hv.bracket
    · rw [hlast] at hangle
      have hlonger : v <:+ u ++ v := List.suffix_append u v
      exact (hv.angle hangle).imp (·.trans hlonger) (·.trans hlonger)

/-- A comma that follows may also follow what is longer at its start. -/
theorem MayPrecedeComma.append (h : MayPrecedeComma v)
    (hu : ∀ first, u = first ++ [','] → NamesOperator first) : MayPrecedeComma (u ++ v) := by
  refine ⟨fun hnone => h.nonempty (List.append_eq_nil_iff.mp hnone).2,?_,fun first hfirst => ?_⟩
  · exact .append (fun hnone => absurd hnone h.nonempty) h.closed
  · rcases List.append_eq_append_iff.mp hfirst with ⟨x,rfl,hv⟩ | ⟨x,hu',hcomma⟩
    · exact (h.single x hv).append u
    · -- the comma that ends the text starts in what stands before
      rcases x with _ | ⟨c,_ | ⟨d,x⟩⟩
      · obtain ⟨_,hnone⟩ := h.single [] hcomma.symm
        simp at hnone
      · cases hcomma
        exact hu first hu'
      · obtain ⟨_,_,hnone⟩ : ',' = c ∧ ' ' = d ∧ [] = x ++ v := by simpa using hcomma
        exact absurd (List.append_eq_nil_iff.mp hnone.symm).2 h.nonempty

/-- A comma before a text may also stand before what is longer at its end. -/
theorem MayFollowComma.append (h : MayFollowComma u) (hu : u ≠ [',']) :
    MayFollowComma (u ++ v) := by
  obtain ⟨c,u,rfl⟩ := List.exists_cons_of_ne_nil h.nonempty
  refine ⟨List.cons_ne_nil _ _,h.opened,fun hcomma => ?_⟩
  rw [List.cons_append,List.cons_prefix_cons] at hcomma
  obtain ⟨rfl,hrest⟩ := hcomma
  cases u with
  | nil => exact hu rfl
  | cons d u =>
    rw [List.cons_append,List.cons_prefix_cons] at hrest
    obtain ⟨rfl,_⟩ := hrest
    exact h.single ⟨u,rfl⟩

/-- A single `,` does not follow a comma. -/
theorem Tame.follows (hu : Tame u) (htext : u = before ++ (comma ++ text))
    (h : MayFollowComma text) :
    MayFollowComma (text ++ v) := by
  refine h.append ?_
  rintro rfl
  have hoperator := hu.last (before ++ comma) (by simpa using htext)
  have hlast :=
    namesOperator_concat (show NamesOperator ((before ++ [',']) ++ [' ']) by simpa using hoperator)
  exact absurd hlast (by decide)

theorem Tame.empty : Tame [] :=
  ⟨fun before after h => by simp at h,fun before h => by simp at h⟩

/-- Commas inside of two texts stay as they are when one follows the other, and none arises
between. -/
theorem Tame.append (hu : Tame u) (hv : Tame v) : Tame (u ++ v) := by
  refine ⟨fun before after htext => ?_,fun before htext => ?_⟩
  · rcases List.append_eq_append_iff.mp htext with ⟨x,rfl,hx⟩ | ⟨x,hx,hrest⟩
    · exact (hv.separated x after hx).imp (·.append u) fun h => ⟨h.1.append hu.last,h.2⟩
    · rcases x with _ | ⟨c,_ | ⟨d,x⟩⟩
      · obtain ⟨_,hnone⟩ | ⟨hbefore,_⟩ := hv.separated [] after hrest.symm
        · simp at hnone
        · exact absurd rfl hbefore.nonempty
      · cases hrest
        exact .inl (hu.last before hx)
      · cases hrest
        exact (hu.separated before x hx).imp id fun h => ⟨h.1,hu.follows hx h.2⟩
  · rcases List.eq_nil_or_concat v with rfl | ⟨first,c,rfl⟩
    · exact hu.last before (by simpa using htext)
    · have hsame : u ++ first ++ [c] = before ++ [','] := by simpa using htext
      obtain ⟨rfl,hc⟩ := List.append_inj' hsame rfl
      cases hc
      exact (hv.last first (by simp)).append u

theorem Tame.join (hu : Tame u) (hv : Tame v) (hbefore : MayPrecedeComma u)
    (hafter : MayFollowComma v) :
    Tame (u ++ (comma ++ v)) := by
  have hcomma : ∀ first, u ++ comma = first ++ [','] → NamesOperator first := by
    intro first hfirst
    have hlast := congrArg List.getLast? hfirst
    simp at hlast
  refine ⟨fun before after htext => ?_,fun before htext => ?_⟩
  · rcases List.append_eq_append_iff.mp htext with ⟨x,rfl,hx⟩ | ⟨x,hx,hrest⟩
    · rcases x with _ | ⟨c,_ | ⟨d,x⟩⟩
      · cases hx
        rw [List.append_nil]
        exact .inr ⟨hbefore,hafter⟩
      · cases hx
      · cases hx
        have hmoved : u ++ ',' :: ' ' :: x = u ++ comma ++ x := by simp
        rw [hmoved]
        exact (hv.separated x after rfl).imp (·.append _) fun h => ⟨h.1.append hcomma,h.2⟩
    · rcases x with _ | ⟨c,_ | ⟨d,x⟩⟩
      · cases hrest
        rw [List.append_nil] at hx
        exact hx ▸ .inr ⟨hbefore,hafter⟩
      · cases hrest
      · cases hrest
        exact (hu.separated before x hx).imp id fun h => ⟨h.1,hu.follows hx h.2⟩
  · rcases List.eq_nil_or_concat v with rfl | ⟨first,c,rfl⟩
    · exact absurd rfl hafter.nonempty
    · have hsame : u ++ comma ++ first ++ [c] = before ++ [','] := by simpa using htext
      obtain ⟨rfl,hc⟩ := List.append_inj' hsame rfl
      cases hc
      exact (hv.last first (by simp)).append _

theorem Tame.mayPrecedeComma (h : Tame u) (hne : u ≠ []) (hclosed : EndsClosed u) :
    MayPrecedeComma u := by
  refine ⟨hne,hclosed,fun first hfirst => ?_⟩
  obtain hoperator | ⟨_,hafter⟩ := h.separated first [] hfirst
  · exact hoperator
  · exact absurd rfl hafter.nonempty

theorem Tame.mayFollowComma (h : Tame u) (hne : u ≠ []) (hopened : StartsOpen u) :
    MayFollowComma u := by
  refine ⟨hne,hopened,fun hcomma => ?_⟩
  obtain ⟨after,rfl⟩ := hcomma
  obtain ⟨_,hnone⟩ | ⟨hbefore,_⟩ := h.separated [] after rfl
  · simp at hnone
  · exact absurd rfl hbefore.nonempty

end

/-- What is known of a text from its ends: that it closes no bracket at its start, that it is not
empty, and that it opens no bracket at its end. -/
structure Edges where
  opened : Bool
  solid : Bool
  closed : Bool
  deriving DecidableEq, Repr

namespace Edges

def append (e f : Edges) : Edges :=
  ⟨e.opened && (e.solid || f.opened),e.solid || f.solid,f.closed && (f.solid || e.closed)⟩

/-- Edges that say all that others say. -/
def covers (e f : Edges) : Bool :=
  (!f.opened || e.opened) && (!f.solid || e.solid) && (!f.closed || e.closed)

def ofText (text : List Char) : Edges :=
  ⟨text.head?.all (· ∉ [')','>',']','\x7d']),!text.isEmpty,text.getLast?.all
    (· ∉ ['(','<','[','\x7b'])⟩

/-- The items of a list, if they show anything. -/
def item : Edges := ⟨true,false,true⟩

def tail : Edges := ⟨false,false,true⟩

def closer : Edges := ⟨false,true,true⟩

def whole : Edges := ⟨true,true,true⟩

structure Fits (e : Edges) (text : List Char) : Prop where
  tame : Tame text
  opened : e.opened = true → StartsOpen text
  solid : e.solid = true → text ≠ []
  closed : e.closed = true → EndsClosed text

section
variable {e f : Edges} {u v text : List Char}

theorem Fits.append (hu : e.Fits u) (hv : f.Fits v) : (e.append f).Fits (u ++ v) where
  tame := hu.tame.append hv.tame
  opened h := by
    simp only [Edges.append,Bool.and_eq_true,Bool.or_eq_true] at h
    exact (hu.opened h.1).append fun hnone =>
      h.2.elim (fun h => absurd hnone (hu.solid h)) hv.opened
  solid h hnone := by
    obtain ⟨hu',hv'⟩ := List.append_eq_nil_iff.mp hnone
    simp only [Edges.append,Bool.or_eq_true] at h
    exact h.elim (fun h => hu.solid h hu') fun h => hv.solid h hv'
  closed h := by
    simp only [Edges.append,Bool.and_eq_true,Bool.or_eq_true] at h
    exact .append (fun hnone => h.2.elim (fun h => absurd hnone (hv.solid h)) hu.closed)
      (hv.closed h.1)

theorem Fits.mono (h : e.Fits text) (hef : e.covers f = true) : f.Fits text := by
  simp only [covers,Bool.and_eq_true,Bool.or_eq_true,Bool.not_eq_true'] at hef
  obtain ⟨⟨hopened,hsolid⟩,hclosed⟩ := hef
  have implied : ∀ {a b : Bool}, a = false ∨ b = true → a = true → b = true := by
    intro a b hab ha
    exact hab.resolve_left fun hnot => by cases ha.symm.trans hnot
  exact ⟨h.tame,fun hf => h.opened (implied hopened hf),fun hf => h.solid (implied hsolid hf),
    fun hf => h.closed (implied hclosed hf)⟩

theorem Fits.empty : item.Fits [] := ⟨.empty,fun _ => nofun,nofun,fun _ => ⟨nofun,nofun⟩⟩

theorem ofText_fits (h : ',' ∉ text) : (ofText text).Fits text where
  tame := by
    refine ⟨fun before after htext => absurd ?_ h,fun before htext => absurd ?_ h⟩
    · simp [htext]
    · simp [htext]
  opened hopened c hc := by
    have hnot : c ∉ [')','>',']','\x7d'] := by
      simpa [ofText,Option.mem_def.mp hc] using hopened
    exact hnot
  solid hsolid hnone := by
    rw [hnone] at hsolid
    cases hsolid
  closed hclosed := by
    have hnot : ∀ c ∈ text.getLast?, c ∉ ['(','<','[','\x7b'] := fun c hc => by
      simpa [ofText,Option.mem_def.mp hc] using hclosed
    refine ⟨fun c hc hbracket => hnot c hc ?_,fun hangle => absurd ?_ (hnot '<' hangle)⟩
    · revert hbracket
      simp only [List.mem_cons]
      tauto
    · decide

theorem Fits.mayPrecedeComma (h : item.Fits u) (hne : u ≠ []) : MayPrecedeComma u :=
  h.tame.mayPrecedeComma hne (h.closed rfl)

theorem Fits.mayFollowComma (h : item.Fits u) (hne : u ≠ []) : MayFollowComma u :=
  h.tame.mayFollowComma hne (h.opened rfl)

theorem Fits.join (hu : item.Fits u) (hv : item.Fits v) (hune : u ≠ []) (hvne : v ≠ []) :
    item.Fits (u ++ (comma ++ v)) where
  tame := hu.tame.join hv.tame (hu.mayPrecedeComma hune) (hv.mayFollowComma hvne)
  opened _ := (hu.opened rfl).append fun hnone => absurd hnone hune
  solid h := nomatch h
  closed _ := by
    rw [← List.append_assoc]
    exact .append (fun hnone => absurd hnone hvne) (hv.closed rfl)

end

end Edges

end MangledNames.Printing
