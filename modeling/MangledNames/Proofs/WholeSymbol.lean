import MangledNames.Proofs.Grammar.DecodingEncodings
import MangledNames.Proofs.Limits
set_option autoImplicit false

/-!
What a symbol is parsed to, when its text is known to be read within some number of levels.
-/

namespace MangledNames

open Grammar

def marked (text : List Char) : String := String.ofList ('_' :: 'Z' :: text)

def behindMark (text : List Char) (limit : Nat) : Context where
  cursor := Cursor.advance 2 (Cursor.start (marked text).toList)
  recursionLimit := limit

section
variable {text : List Char} {tree : Node} {table : Substitutions} {config : Config}

theorem toList_marked (text : List Char) : (marked text).toList = '_' :: 'Z' :: text :=
  String.toList_ofList

theorem mark?_marked (text : List Char) : Symbol.mark? (marked text).toList = some ['_','Z'] := by
  rw [toList_marked]
  rfl

theorem behindMark_offTrial (text : List Char) (limit : Nat) :
    OffTrial true text {} (behindMark text limit) := by
  unfold behindMark
  rw [toList_marked]
  exact ⟨⟨rfl,rfl,rfl⟩,rfl⟩

/-- What is made of a reading from behind the mark to the end. -/
def markedEnding (text : List Char) (levels limit : Nat) : Except Fault Symbol :=
  ending (fun tree after => Symbol.ofTree (marked text).toList tree after.substitutions)
    (wholeSymbol (Rules.levels levels) (behindMark text limit))

theorem parse_markedEnding (hsize : ¬(marked text).length > config.inputSizeLimit) :
    Symbol.parse (marked text) config =
      markedEnding text config.recursionLimit config.recursionLimit :=
  Symbol.parse_ending hsize (mark?_marked text)

theorem parse_markedEnding_upToLimits {n : Nat} (hn : config.recursionLimit ≤ n)
    (hsize : ¬(marked text).length > config.inputSizeLimit) :
    UpToLimits (Symbol.parse (marked text) config) (markedEnding text n config.recursionLimit) := by
  rw [parse_markedEnding hsize]
  refine Symbol.ending_upToLimits _ hn ?_
  exact ⟨by simp [sameText,Cursor.behind],rfl,rfl,rfl,rfl,fun _ => rfl,by simp [sameText]⟩

theorem markedEnding_eq {n limit : Nat} (h : Gives (wholeSymbol (Rules.levels n))
    (OffTrial true text {}) tree (At true [] table)) :
    markedEnding text n limit = .ok ⟨marked text,tree,table⟩ := by
  obtain ⟨after,hread,hafter⟩ := h.results _ (behindMark_offTrial text limit)
  have hmarked : (Symbol.mark? (marked text).toList).isSome := by
    rw [mark?_marked]
    rfl
  unfold markedEnding
  rw [hread]
  simp only [ending,Symbol.ofTree,if_pos hmarked,hafter.substitutions,String.ofList_toList]

theorem parse_offTrial (hsize : (marked text).length ≤ config.inputSizeLimit)
    (h : Gives (wholeSymbol (Rules.levels config.recursionLimit)) (OffTrial true text {}) tree
      (At true [] table)) :
    Symbol.parse (marked text) config = .ok ⟨marked text,tree,table⟩ := by
  rw [parse_markedEnding (by omega)]
  exact markedEnding_eq h

/-- A text that is read within some number of levels, when no trial is going on. -/
theorem parse_offTrial_upToLimits {n : Nat} (hn : config.recursionLimit ≤ n)
    (h : Gives (wholeSymbol (Rules.levels n)) (OffTrial true text {}) tree (At true [] table)) :
    UpToLimits (Symbol.parse (marked text) config) (.ok ⟨marked text,tree,table⟩) := by
  by_cases hsize : (marked text).length > config.inputSizeLimit
  · exact .inl ⟨_,Symbol.parse_tooLarge hsize,_,rfl,rfl⟩
  · rw [← markedEnding_eq h]
    exact parse_markedEnding_upToLimits hn hsize

theorem parse_marked (hsize : (marked text).length ≤ config.inputSizeLimit)
    (h : Reads true (wholeSymbol (Rules.levels config.recursionLimit)) text {} tree [] table) :
    Symbol.parse (marked text) config = .ok ⟨marked text,tree,table⟩ :=
  parse_offTrial hsize h.whileOff

theorem parse_marked_upToLimits {n : Nat} (hn : config.recursionLimit ≤ n)
    (h : Reads true (wholeSymbol (Rules.levels n)) text {} tree [] table) :
    UpToLimits (Symbol.parse (marked text) config) (.ok ⟨marked text,tree,table⟩) :=
  parse_offTrial_upToLimits hn h.whileOff

/-- What every tree that is read within some number of levels has, those have that are read within
fewer. -/
theorem parse_marked_yields {n : Nat} {p : Node → Prop} (hn : config.recursionLimit ≤ n)
    (h : Yields (wholeSymbol (Rules.levels n)) (OffTrial true text {}) p) {symbol : Symbol}
    (hparse : Symbol.parse (marked text) config = .ok symbol) : p symbol.tree := by
  have hsize : ¬(marked text).length > config.inputSizeLimit := by
    intro hsize
    rw [Symbol.parse_tooLarge hsize] at hparse
    cases hparse
  rcases parse_markedEnding_upToLimits hn hsize with ⟨fault,hcut,_⟩ | hsame
  · cases hparse.symm.trans hcut
  · rw [hparse,markedEnding] at hsame
    cases hrun : wholeSymbol (Rules.levels n) (behindMark text config.recursionLimit) with
    | error fault after =>
      rw [hrun] at hsame
      cases hsame
    | ok tree after =>
      have htree : p tree := h.results _ _ _ (behindMark_offTrial text _) hrun
      rw [hrun] at hsame
      simp only [ending,Symbol.ofTree] at hsame
      split at hsame
      · cases hsame
        exact htree
      · cases hsame

end

end MangledNames
