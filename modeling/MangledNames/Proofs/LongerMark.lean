import MangledNames.Proofs.Tails
import MangledNames.Proofs.Grammar.LockstepExpressions
set_option autoImplicit false

/-!
The mark of a symbol may have one more underscore: it changes the offsets of errors and
nothing else.
-/

namespace MangledNames

open Grammar

/-- Two runs of which the second has one more underscore in front of its text. -/
def Grammar.behindUnderscore : Gap where
  front := ['_']
  cut := false
  sameLimit := true
  onTrial := false

namespace Symbol

section
variable {α : Type} {f f' : Node → Context → α} {m : Parser Node} {context context' : Context}

/-- What two runs come to, when the second is over a text with one more underscore in front: where
neither is cut off, both succeed or both fail. -/
theorem ending_later (later : α → α) (h : behindUnderscore.lockstep.Alike m m)
    (hsame : behindUnderscore.Same context context')
    (hlater : ∀ tree after after', behindUnderscore.Same after after' →
      f' tree after' = later (f tree after)) :
    ending (fun tree after => .ok (f' tree after)) (m context') =
      ((ending (fun tree after => .ok (f tree after)) (m context)).map later).mapError
        (Fault.later 1) := by
  have hresult := h.results context context' hsame
  cases hfirst : m context with
  | ok tree after =>
    cases hsecond : m context' with
    | ok tree' after' =>
      rw [hfirst,hsecond] at hresult
      obtain ⟨rfl,hafter⟩ := hresult
      exact congrArg Except.ok (hlater tree after after' hafter)
    | error fault' after' =>
      rw [hfirst,hsecond] at hresult
      exact hresult.elim
  | error fault after =>
    cases hsecond : m context' with
    | ok tree' after' =>
      rw [hfirst,hsecond] at hresult
      exact absurd ((Gap.cutLeft_iff rfl).mp hresult).1 Bool.false_ne_true
    | error fault' after' =>
      rw [hfirst,hsecond] at hresult
      rcases hresult with hcut | hcut | ⟨hfault,_⟩
      · exact absurd ((Gap.cutLeft_iff rfl).mp hcut).1 Bool.false_ne_true
      · exact hcut.elim
      · exact congrArg Except.error hfault

end

def behindUnderscore (symbol : Symbol) : Symbol := { symbol with raw := "_" ++ symbol.raw }

/-- A text that starts with the shorter mark is opened to the same characters behind an
underscore. -/
theorem opened_behind_underscore {text : String} {config : Config}
    (hmark : "_Z".toList <+: text.toList) (hsize : text.length + 1 ≤ config.inputSizeLimit) :
    ∃ read, Opened text config ['_','Z'] read ∧ Opened ("_" ++ text) config ['_','_','Z'] read := by
  obtain ⟨read,hread⟩ := hmark
  refine ⟨read,⟨by omega,fun more => by simp [mark?],hread.symm⟩,
    ⟨?_,fun more => by simp [mark?],?_⟩⟩
  · rw [String.length_append]
    have hone : "_".length = 1 := rfl
    omega
  · rw [String.toList_append,← hread]
    rfl

end Symbol

/-- A text and the same text behind one more underscore are parsed alike: the same trees, tables and
tails, and the same errors but for their offsets, which lie one further on. -/
theorem leading_underscore_only_shifts_offsets (text : String) (config : Config)
    (hmark : "_Z".toList <+: text.toList) (hsize : text.length + 1 ≤ config.inputSizeLimit) :
    Symbol.parse ("_" ++ text) config =
        ((Symbol.parse text config).map Symbol.behindUnderscore).mapError (Fault.later 1) ∧
      Symbol.parseWithTail ("_" ++ text) config =
        ((Symbol.parseWithTail text config).map (Prod.map Symbol.behindUnderscore id)).mapError
          (Fault.later 1) := by
  obtain ⟨read,hopened,hbehind⟩ := Symbol.opened_behind_underscore hmark hsize
  have hrules := Rules.levels_alike_of_same (g := behindUnderscore) rfl config.recursionLimit
  have hsame : behindUnderscore.Same (Symbol.contextBehind ['_','Z'] read config)
      (Symbol.contextBehind ['_','_','Z'] read config) :=
    ⟨rfl,rfl,rfl,rfl,rfl,fun _ => rfl,nofun⟩
  rw [hopened.parse_ending,hbehind.parse_ending,hopened.parseWithTail_ending,
    hbehind.parseWithTail_ending]
  constructor
  · refine Symbol.ending_later _ (wholeSymbol_alike hrules) hsame fun tree after after' hafter => ?_
    rw [hafter.substitutions]
    rfl
  · refine Symbol.ending_later _ (mangledName_alike hrules) hsame fun tree after after' hafter => ?_
    have hraw : String.ofList after'.cursor.passed.reverse =
        "_" ++ String.ofList after.cursor.passed.reverse := by
      apply String.toList_injective
      simp [hafter.cursor,Cursor.behind,behindUnderscore]
    rw [hraw,hafter.substitutions,hafter.cursor]
    rfl

/-- `_Z1fS5_` refers back to what is not there, at offset 4 and behind an underscore at offset 5. -/
theorem leading_underscore_only_shifts_offsets_bad_reference :
    "_Z".toList <+: "_Z1fS5_".toList ∧ "_Z1fS5_".length + 1 ≤ Config.standard.inputSizeLimit ∧
      Symbol.parse "_Z1fS5_" .standard = .error (.error (.badBackReference 6 0 4)) ∧
      Symbol.parse "__Z1fS5_" .standard = .error (.error (.badBackReference 6 0 5)) := by
  have hmark : "_Z".toList <+: "_Z1fS5_".toList := ⟨['1','f','S','5','_'],by decide⟩
  have hsize : "_Z1fS5_".length + 1 ≤ Config.standard.inputSizeLimit := by decide
  have hfails : Symbol.parse "_Z1fS5_" .standard = .error (.error (.badBackReference 6 0 4)) :=
    Symbol.parse_eq_error (by decide +kernel)
  refine ⟨hmark,hsize,hfails,?_⟩
  refine (leading_underscore_only_shifts_offsets "_Z1fS5_" .standard hmark hsize).1.trans ?_
  rw [hfails]
  rfl

end MangledNames
