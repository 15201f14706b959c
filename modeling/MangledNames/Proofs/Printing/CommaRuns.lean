import MangledNames.Proofs.Printing.CommaTexts
import MangledNames.Proofs.Printing.LastSign
import MangledNames.Proofs.Printing.ListTexts
set_option autoImplicit false

/-!
Runs that write texts with such edges, and the lists that are made of them.
-/

namespace MangledNames.Printing

open Edges

/-- Whatever a run adds to a sheet has these edges. -/
def Makes {α : Type} (m : Printer α) (e : Edges) : Prop := Says m fun text => e.Fits text.toList

section
variable {α β : Type} {m : Printer α} {q : α → Printer β} {k : Unit → Printer β} {e f : Edges}
  {text : String}

namespace Makes

theorem mono (h : Makes m e) (hef : e.covers f = true) : Makes m f :=
  h.imp fun _ htext => htext.mono hef

theorem bind (h : Makes m e) (hq : ∀ a, Makes (q a) f) : Makes (m >>= q) (e.append f) :=
  Says.bind h hq fun text text' htext htext' => by
    rw [String.toList_append]
    exact htext.append htext'

theorem write (h : e.Fits text.toList) : Makes (Printing.write text) e :=
  (Says.write text).imp fun _ hsame => hsame ▸ h

theorem literal (h : ',' ∉ text.toList) : Makes (Printing.write text) (.ofText text.toList) :=
  .write (ofText_fits h)

theorem pure (a : α) : Makes (Pure.pure a : Printer α) .item :=
  (Says.pure a).imp fun _ hnone => by
    rw [hnone]
    exact .empty

theorem asked {p : α → Prop} (hgrows : Grows m)
    (hasks : ∀ s a t, m s = .ok a t → t.output = s.output ∧ p a) (hq : ∀ a, p a → Makes (q a) e) :
    Makes (m >>= q) e := Says.asked hgrows hasks hq

theorem asking (hgrows : Grows m) (hasks : Asks m) (hq : ∀ a, Makes (q a) e) : Makes (m >>= q) e :=
  .asked hgrows (fun s a t ht => ⟨hasks s a t ht,trivial⟩) fun a _ => hq a

theorem ofExcept {found : Except DemangleError α} (h : ∀ a, found = .ok a → Makes (q a) e) :
    Makes (Printing.ofExcept found >>= q) e := Says.ofExcept h

theorem ite {c : Prop} [Decidable c] {m n : Printer α} (hm : c → Makes m e) (hn : ¬c → Makes n e) :
    Makes (if c then m else n) e := by
  split
  · exact hm ‹_›
  · exact hn ‹_›

/-- A text that may stand before what follows. -/
theorem writeIf {c : Prop} [Decidable c] (htext : ',' ∉ text.toList) (h : Makes (k ()) e)
    (hedges : ((Edges.ofText text.toList).append e).covers e = true) :
    Makes (if c then Printing.write text >>= k else k ()) e :=
  .ite (fun _ => ((literal htext).bind fun _ => h).mono hedges) fun _ => h

theorem writeUnless {c : Prop} [Decidable c] (htext : ',' ∉ text.toList) (h : Makes (k ()) e)
    (hedges : ((Edges.ofText text.toList).append e).covers e = true) :
    Makes (if c then k () else Printing.write text >>= k) e :=
  .ite (fun _ => h) fun _ => ((literal htext).bind fun _ => h).mono hedges

end Makes

end

end MangledNames.Printing
