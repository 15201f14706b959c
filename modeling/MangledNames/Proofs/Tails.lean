import MangledNames.Proofs.Grammar.CloneMarks
import MangledNames.Proofs.Grammar.MisledTrials
import MangledNames.Proofs.Limits
import MangledNames.Proofs.Safety
set_option autoImplicit false

/-!
Symbols in longer texts: a symbol that was cut out stands on its own, and text behind
a symbol does not change it.
-/

namespace MangledNames

open Grammar Horizon

theorem Grammar.wholeSymbol_ok {r : Rules} {context after : Context} {tree : Node} :
    wholeSymbol r context = .ok tree after ↔
      mangledName r context = .ok tree after ∧ after.cursor.rest = [] := by
  have hend : ∀ (tree : Node) (after : Context), (do
      unless ← liftM Cursor.atEnd do unexpected "end of symbol"
      return tree : Parser Node) after =
        (if after.cursor.rest.isEmpty then pure tree
          else unexpected "end of symbol" >>= fun _ => pure tree :
          Parser Node) after := fun _ _ => rfl
  constructor
  · intro h
    obtain ⟨name,t,hname,hwhole⟩ := bind_ok h
    rw [hend] at hwhole
    split at hwhole
    · rename_i hempty
      cases hwhole
      exact ⟨hname,List.isEmpty_iff.mp hempty⟩
    · cases hwhole
  · rintro ⟨hname,hempty⟩
    change (mangledName r >>= _) _ = _
    rw [bind_apply,hname]
    exact (hend tree after).trans (by rw [hempty]; rfl)

theorem Grammar.mangledName_unmarked {r : Rules} {context after : Context} {encoding : Node}
    (h : mangledName r context = .ok (.mangledName encoding none) after) :
    r.encoding context = .ok encoding after := by
  obtain ⟨found,mid,hencoding,hrest⟩ := bind_ok h
  obtain ⟨unmarked,last,hunmarked,hbuild⟩ := bind_ok hrest
  unfold build at hbuild
  split at hbuild
  · cases hbuild
    rw [hencoding,cloneSuffix_none hunmarked]
  · cases hbuild

theorem Grammar.mangledName_marked {r : Rules} {context mid after : Context} {encoding : Node}
    {suffix : String} (hencoding : r.encoding context = .ok encoding mid)
    (hsuffix : cloneSuffix mid = .ok (some suffix) after) (hdot : suffix.toList.head? = some '.') :
    mangledName r context = .ok (.mangledName encoding (some suffix)) after := by
  unfold mangledName
  rw [bind_apply,hencoding]
  dsimp only
  rw [bind_apply,hsuffix]
  refine congrFun (if_pos ?_) after
  simp [Node.wellFormed,hdot]

namespace Symbol

def contextBehind (mark read : List Char) (config : Config) : Context where
  cursor := ⟨mark.reverse,read⟩
  recursionLimit := config.recursionLimit

theorem mark?_of_append {text mark : List Char} (h : mark? text = some mark) (read : List Char) :
    mark? (mark ++ read) = some mark := by
  unfold mark? at h
  split at h
  · cases h
    simp [mark?]
  · split at h
    · cases h
      simp [mark?]
    · cases h

/-- How a text is taken apart before it is read. -/
structure Opened (raw : String) (config : Config) (mark read : List Char) : Prop where
  size : raw.length ≤ config.inputSizeLimit
  marked : ∀ more, mark? (mark ++ more) = some mark
  text : raw.toList = mark ++ read

theorem contextOf_ok {raw : String} {config : Config} {context : Context}
    (h : contextOf raw config = .ok context) :
    ∃ mark read, Opened raw config mark read ∧ context = contextBehind mark read config := by
  unfold contextOf at h
  split at h
  · cases h
  · rename_i hsize
    split at h
    · cases h
    · rename_i mark hmark
      cases h
      obtain ⟨read,hread,_⟩ := mark?_append hmark
      refine ⟨mark,read,⟨by omega,mark?_of_append hmark,hread⟩,?_⟩
      rw [hread,Cursor.start,Cursor.advance_eq,List.append_nil]
      rfl

theorem leads_of_read {mark read : List Char} {config : Config} {tree : Node} {after : Context}
    (h : mangledName (Rules.levels config.recursionLimit) (contextBehind mark read config) =
      .ok tree after) : Cursor.Leads ⟨mark.reverse,read⟩ after.cursor := by
  have hmoves := (mangledName_advances (Rules.levels_advance config.recursionLimit)).ends
    (contextBehind mark read config) trivial
  rw [h] at hmoves
  exact hmoves.1.cursor

namespace Opened

variable {raw : String} {config : Config} {mark read : List Char}

theorem mark?_eq (h : Opened raw config mark read) : mark? raw.toList = some mark := by
  rw [h.text]
  exact h.marked read

theorem advance_start (h : Opened raw config mark read) :
    Cursor.advance mark.length (Cursor.start raw.toList) = ⟨mark.reverse,read⟩ := by
  rw [h.text,Cursor.start,Cursor.advance_eq,List.append_nil]

theorem contextOf_eq (h : Opened raw config mark read) :
    contextOf raw config = .ok (contextBehind mark read config) := by
  unfold contextOf
  rw [if_neg (Nat.not_lt.mpr h.size),h.mark?_eq]
  dsimp only
  rw [h.advance_start]
  rfl

theorem append (h : Opened raw config mark read) {tail : String}
    (hsize : (raw ++ tail).length ≤ config.inputSizeLimit) :
    Opened (raw ++ tail) config mark (read ++ tail.toList) :=
  ⟨hsize,h.marked,by simp [h.text]⟩

/-- What was read of a text is opened on its own in the same way. -/
theorem cut {found tail : List Char} (h : Opened raw config mark (found ++ tail)) :
    Opened (String.ofList (mark ++ found)) config mark found := by
  refine ⟨?_,h.marked,String.toList_ofList⟩
  have hsize := h.size
  rw [← String.length_toList,h.text,← List.append_assoc,List.length_append] at hsize
  rw [String.length_ofList]
  omega

theorem parse_ending (h : Opened raw config mark read) :
    parse raw config = ending (fun tree after => .ok ⟨raw,tree,after.substitutions⟩)
      (wholeSymbol (Rules.levels config.recursionLimit) (contextBehind mark read config)) := by
  have hmarked : (mark? raw.toList).isSome := by
    rw [h.mark?_eq]
    rfl
  rw [Symbol.parse_ending (Nat.not_lt.mpr h.size) h.mark?_eq,h.advance_start]
  simp only [ofTree,if_pos hmarked,String.ofList_toList]
  rfl

theorem parseWithTail_ending (h : Opened raw config mark read) :
    parseWithTail raw config = ending (fun tree after =>
        .ok (⟨String.ofList after.cursor.passed.reverse,tree,after.substitutions⟩,
          String.ofList after.cursor.rest))
      (mangledName (Rules.levels config.recursionLimit) (contextBehind mark read config)) := by
  unfold parseWithTail
  rw [h.contextOf_eq]
  have hlevels : (contextBehind mark read config).levelsLeft = config.recursionLimit := rfl
  dsimp only [bind,Except.bind,reading]
  rw [hlevels]
  cases hread : mangledName (Rules.levels config.recursionLimit)
    (contextBehind mark read config) with
  | ok tree after =>
    have hmarked : (mark? after.cursor.passed.reverse).isSome := by
      obtain ⟨found,hpassed,_⟩ := leads_of_read hread
      rw [hpassed]
      simp [h.marked]
    simp only [ofTree,if_pos hmarked]
    rfl
  | error fault after => rfl

theorem parse_eq (h : Opened raw config mark read) {tree : Node} {after : Context}
    (hread : mangledName (Rules.levels config.recursionLimit) (contextBehind mark read config) =
      .ok tree after) (hend : after.cursor.rest = []) :
    parse raw config = .ok ⟨raw,tree,after.substitutions⟩ := by
  rw [h.parse_ending,wholeSymbol_ok.mpr ⟨hread,hend⟩]
  rfl

theorem parseWithTail_eq (h : Opened raw config mark read) {tree : Node} {after : Context}
    (hread : mangledName (Rules.levels config.recursionLimit) (contextBehind mark read config) =
      .ok tree after) :
    parseWithTail raw config = .ok
      (⟨String.ofList after.cursor.passed.reverse,tree,after.substitutions⟩,
      String.ofList after.cursor.rest) := by
  rw [h.parseWithTail_ending,hread]
  rfl

end Opened

theorem opened_of_ok {α : Type} {raw : String} {config : Config} {read : Context → Except Fault α}
    {a : α} (h : (contextOf raw config >>= read) = .ok a) :
    ∃ mark rest, Opened raw config mark rest := by
  cases hcontext : contextOf raw config with
  | error fault =>
    rw [hcontext] at h
    cases h
  | ok context =>
    obtain ⟨mark,rest,hopened,_⟩ := contextOf_ok hcontext
    exact ⟨mark,rest,hopened⟩

theorem parse_ok {raw : String} {config : Config} {symbol : Symbol}
    (h : parse raw config = .ok symbol) :
    ∃ mark read after, Opened raw config mark read ∧
      mangledName (Rules.levels config.recursionLimit) (contextBehind mark read config) =
        .ok symbol.tree after ∧ after.cursor.rest = [] ∧
        symbol = ⟨raw,symbol.tree,after.substitutions⟩ := by
  obtain ⟨mark,read,hopened⟩ := opened_of_ok h
  rw [hopened.parse_ending] at h
  cases hwhole : wholeSymbol (Rules.levels config.recursionLimit)
    (contextBehind mark read config) with
  | error fault after =>
    rw [hwhole] at h
    cases h
  | ok tree after =>
    rw [hwhole] at h
    cases h
    obtain ⟨hname,hend⟩ := wholeSymbol_ok.mp hwhole
    exact ⟨mark,read,after,hopened,hname,hend,rfl⟩

theorem parseWithTail_ok {raw : String} {config : Config} {symbol : Symbol} {tail : String}
    (h : parseWithTail raw config = .ok (symbol,tail)) :
    ∃ mark read after, Opened raw config mark read ∧
      mangledName (Rules.levels config.recursionLimit) (contextBehind mark read config) =
        .ok symbol.tree after ∧
      symbol = ⟨String.ofList after.cursor.passed.reverse,symbol.tree,after.substitutions⟩ ∧
      tail = String.ofList after.cursor.rest := by
  obtain ⟨mark,read,hopened⟩ := opened_of_ok h
  rw [hopened.parseWithTail_ending] at h
  cases hname : mangledName (Rules.levels config.recursionLimit)
    (contextBehind mark read config) with
  | error fault after =>
    rw [hname] at h
    cases h
  | ok tree after =>
    rw [hname] at h
    cases h
    exact ⟨mark,read,after,hopened,hname,rfl,rfl⟩

theorem parse_eq_error {raw : String} {config : Config} {fault : Fault}
    (h : (match parse raw config with
      | .ok _ => none
      | .error fault => some fault) = some fault) : parse raw config = .error fault := by
  cases hread : parse raw config with
  | ok symbol =>
    rw [hread] at h
    cases h
  | error found =>
    rw [hread] at h
    cases h
    rfl

/-- The reading of a text comes to a trial of levels of qualifiers that is given up there, and would
not be if the text ended with the symbol: told to stop in front of such a trial, it does. -/
def MisledIn (symbol : Symbol) (text : String) (config : Config) : Prop :=
  ∃ context, contextOf text config = .ok context ∧ ∀ promise, ∃ after,
    mangledName (Rules.levelsTrying (stoppingWhere (misled text.toList symbol.raw.toList) promise)
      context.levelsLeft) context = .error (.broken promise) after

/-- Any tail, where only runs that end before it are of interest. -/
def outlookBefore (text tail : List Char) (config : Config) : Outlook where
  text := text
  tail := tail
  recursionLimit := config.recursionLimit
  loose := True
  calm := .inl trivial

/-- What was read up to the tail, without a trial that is misled, is read without the tail, too. -/
theorem read_without_tail {mark found : List Char} {config : Config}
    {promise : Promise} {tree : Node} {after : Context}
    (hwide : mangledName (Rules.levelsTrying (stoppingWhere
        (misled (mark ++ found ++ after.cursor.rest) (mark ++ found)) promise)
          config.recursionLimit)
      (contextBehind mark (found ++ after.cursor.rest) config) = .ok tree after) :
    ∃ last, mangledName (Rules.levels config.recursionLimit) (contextBehind mark found config) =
      .ok tree last ∧ last.cursor.rest = [] ∧ last.substitutions = after.substitutions := by
  let v := outlookBefore (mark ++ found) after.cursor.rest config
  have hagrees := (mangledName_sees (v := v) (.inl trivial)
    (Rules.levelsStopping_foresee (v := v) trivial promise config.recursionLimit)).agrees
      (contextBehind mark found config)
      ⟨by simp [v,contextBehind,Cursor.text,outlookBefore],rfl,rfl⟩ trivial
  have hsame : (v.parses config.recursionLimit).extend (contextBehind mark found config) =
      contextBehind mark (found ++ after.cursor.rest) config := rfl
  have here : ¬(v.parses config.recursionLimit).Astray after := Nat.lt_irrefl _
  rw [hsame,show v.text ++ v.tail = mark ++ found ++ after.cursor.rest from rfl,
    show v.text = mark ++ found from rfl,hwide] at hagrees
  cases hnarrow : mangledName (Rules.levelsTrying (stoppingWhere
      (misled (mark ++ found ++ after.cursor.rest) (mark ++ found)) promise) config.recursionLimit)
      (contextBehind mark found config) with
  | error fault last =>
    rw [hnarrow] at hagrees
    exact absurd hagrees here
  | ok tree' last =>
    rw [hnarrow] at hagrees
    rcases hagrees with ⟨rfl,hafter⟩ | ⟨_,hastray⟩
    · have hrest : after.cursor.rest = last.cursor.rest ++ after.cursor.rest :=
        congrArg (fun context : Context => context.cursor.rest) hafter
      exact ⟨last,ok_of_stopping (mangledName_alike (Rules.levelsStopping_alike _ _)) hnarrow,
        by simpa using hrest,
        (congrArg (fun context : Context => context.substitutions) hafter).symm⟩
    · exact absurd hastray here

end Symbol

/-- A symbol that is cut out of a text gives the text together with its tail, and is parsed to the
same tree and the same table alone, unless the reading comes to a trial of levels of qualifiers that
is given up only for what stands behind the symbol. -/
theorem cut_symbols_stand_alone (text : String) (config : Config) (symbol : Symbol) (tail : String)
    (h : Symbol.parseWithTail text config = .ok (symbol,tail)) :
    symbol.raw ++ tail = text ∧
      (Symbol.parse symbol.raw config = .ok symbol ∨ symbol.MisledIn text config) := by
  obtain ⟨mark,read,after,hopened,hwide,hsymbol,rfl⟩ := Symbol.parseWithTail_ok h
  obtain ⟨found,hpassed,rfl⟩ := Symbol.leads_of_read hwide
  have hraw : symbol.raw = String.ofList (mark ++ found) := by
    rw [hsymbol]
    simp [hpassed]
  refine ⟨String.toList_injective (by simp [hraw,hopened.text]),?_⟩
  have hwhole : text.toList = mark ++ found ++ after.cursor.rest := by simp [hopened.text]
  have hcut : symbol.raw.toList = mark ++ found := by simp [hraw]
  have stops := fun promise => stopping_ok_or_stops (mangledName_alike (@Rules.levelsStopping_alike
    (misled text.toList symbol.raw.toList) promise config.recursionLimit)) hwide
  by_cases hstops : ∀ promise, ∃ last, mangledName (Rules.levelsTrying (stoppingWhere
      (misled text.toList symbol.raw.toList) promise) config.recursionLimit)
      (Symbol.contextBehind mark (found ++ after.cursor.rest) config) = .error
        (.broken promise) last
  · exact .inr ⟨_,hopened.contextOf_eq,hstops⟩
  · obtain ⟨promise,hgoes⟩ := not_forall.mp hstops
    have hread := (stops promise).resolve_right hgoes
    rw [hwhole,hcut] at hread
    obtain ⟨last,hnarrow,hend,htable⟩ := Symbol.read_without_tail hread
    have halone : Symbol.Opened symbol.raw config mark found := hraw ▸ hopened.cut
    refine .inl ((halone.parse_eq hnarrow hend).trans ?_)
    rw [htable,hsymbol]

/-- The `sr1a1xEonaw` of a name and its parameters is no trial, so that `I!` misleads none. -/
theorem cut_symbols_stand_alone_name :
    ∃ symbol, Symbol.parseWithTail "_Z7sr1a1xEonawI!" .standard = .ok (symbol,"I!") ∧
      symbol.raw = "_Z7sr1a1xEonaw" ∧ symbol.raw ++ "I!" = "_Z7sr1a1xEonawI!" ∧
      Symbol.parse symbol.raw .standard = .ok symbol := by
  have hfound : (Symbol.parseWithTail "_Z7sr1a1xEonawI!" .standard).toOption.map
      (fun found => (found.1.raw,found.2)) = some ("_Z7sr1a1xEonaw","I!") := by decide +kernel
  have hgoes : ((Symbol.contextOf "_Z7sr1a1xEonawI!" .standard).toOption.bind fun context =>
      (ending (fun _ _ => .ok ()) (mangledName (Rules.levelsTrying (stoppingWhere
        (misled "_Z7sr1a1xEonawI!".toList "_Z7sr1a1xEonaw".toList) .nodeWellFormed)
        context.levelsLeft) context)).toOption) = some () := by decide +kernel
  cases hread : Symbol.parseWithTail "_Z7sr1a1xEonawI!" .standard with
  | error fault =>
    rw [hread] at hfound
    cases hfound
  | ok found =>
    obtain ⟨symbol,tail⟩ := found
    rw [hread] at hfound
    obtain ⟨hraw,rfl⟩ : symbol.raw = "_Z7sr1a1xEonaw" ∧ tail = "I!" := by
      simpa [Except.toOption] using hfound
    obtain ⟨htext,halone⟩ := cut_symbols_stand_alone "_Z7sr1a1xEonawI!" .standard symbol _ hread
    refine ⟨symbol,rfl,hraw,htext,halone.resolve_right ?_⟩
    rintro ⟨context,hcontext,hstops⟩
    obtain ⟨last,hstop⟩ := hstops .nodeWellFormed
    rw [hraw] at hstop
    simp only [hcontext,Except.toOption,Option.bind_some,hstop,ending] at hgoes
    cases hgoes

/-- With `I!` in view, `a::x::operator co_await` does not fit, so that `a::x` ends there and types
follow. Without it the operator fits, and then the `E` of the `decltype` is missing. -/
theorem trials_look_past_the_end :
    ¬∀ (text : String) (config : Config) (symbol : Symbol) (tail : String),
      Symbol.parseWithTail text config = .ok (symbol,tail) →
        symbol.raw ++ tail = text ∧ Symbol.parse symbol.raw config = .ok symbol := by
  intro h
  have hfound : (Symbol.parseWithTail "_Z1fDTsr1a1xEonawI!" .standard).toOption.map
      (·.1.raw) = some "_Z1fDTsr1a1xEonaw" := by decide +kernel
  have hfails : (Symbol.parse "_Z1fDTsr1a1xEonaw" .standard).toOption.isSome = false := by
    decide +kernel
  cases hread : Symbol.parseWithTail "_Z1fDTsr1a1xEonawI!" .standard with
  | error fault =>
    rw [hread] at hfound
    cases hfound
  | ok found =>
    obtain ⟨symbol,tail⟩ := found
    rw [hread] at hfound
    have hraw : symbol.raw = "_Z1fDTsr1a1xEonaw" := by simpa [Except.toOption] using hfound
    have halone := (h _ _ _ _ hread).2
    rw [hraw] at halone
    rw [halone] at hfails
    cases hfails

theorem not_spellsLevels_of_not_mem {text : List Char} (h : 's' ∉ text) : ¬SpellsLevels text := by
  rintro ⟨front,c,rest,rfl,_⟩
  exact h (by simp)

/-- A tail that starts with a stop, behind a symbol without levels of qualifiers. -/
def Symbol.outlookBehind (text tail : List Char) (config : Config)
    (hstop : tail.head?.any isStop = true) (hlevels : ¬SpellsLevels text) : Outlook where
  text := text
  tail := tail
  recursionLimit := config.recursionLimit
  loose := False
  calm := .inr ⟨hstop,hlevels⟩

/-- Text behind a symbol that starts with a space does not change it, and marks of a copy are added
to it, where no levels of qualifiers are spelled. -/
theorem tails_leave_symbols_alone (text : String) (config : Config) (symbol : Symbol)
    (hlevels : ¬SpellsLevels text.toList) (h : Symbol.parse text config = .ok symbol) :
    (∀ tail : String, tail.toList.head? = some ' ' → (text ++ tail).length ≤ config.inputSizeLimit →
      Symbol.parseWithTail (text ++ tail) config = .ok (symbol,tail)) ∧
    ∀ encoding, symbol.tree = .mangledName encoding none → ∀ suffix, IsCloneSuffix suffix →
      Symbol.parse (text ++ suffix) config =
        if (text ++ suffix).length ≤ config.inputSizeLimit then
          .ok ⟨text ++ suffix,.mangledName encoding (some suffix),symbol.substitutions⟩
        else .error (.error (.inputTooLarge (text ++ suffix).length config.inputSizeLimit)) := by
  obtain ⟨mark,read,after,hopened,hname,hend,hsymbol⟩ := Symbol.parse_ok h
  have within : ∀ {tail : List Char} (hstop : tail.head?.any isStop = true),
      ((Symbol.outlookBehind text.toList tail config hstop hlevels).parses
        config.recursionLimit).Within (Symbol.contextBehind mark read config) := fun _ =>
    ⟨by simp [Symbol.contextBehind,Cursor.text,Symbol.outlookBehind,hopened.text],rfl,rfl⟩
  refine ⟨fun tail hspace hsize => ?_,fun encoding htree suffix hsuffix => ?_⟩
  · have hstop : tail.toList.head?.any isStop = true := by simp [hspace,isStop]
    have hwide :=
      (mangledName_sees (v := Symbol.outlookBehind text.toList tail.toList config hstop hlevels)
      (.inr hspace) (Rules.levels_foresee hlevels _)).calm id (within hstop) trivial hname
    have hwide : mangledName (Rules.levels config.recursionLimit)
        (Symbol.contextBehind mark (read ++ tail.toList) config) =
          .ok symbol.tree (after.followedBy tail.toList) := hwide
    have hread := (hopened.append hsize).parseWithTail_eq hwide
    have hpassed : after.cursor.passed.reverse = text.toList := by
      have htext := (Symbol.leads_of_read hname).text_eq
      simpa [Cursor.text,hend,hopened.text] using htext.symm
    rw [hread,hsymbol]
    simp [Context.followedBy,Cursor.followedBy,hpassed,hend]
  · split
    · rename_i hsize
      have hdot := hsuffix.head
      have hstop : suffix.toList.head?.any isStop = true := by simp [hdot,isStop]
      obtain ⟨marks,hne,hmarks,hsuffix⟩ := hsuffix
      have hwide := (Rules.levels_foresee
        (v := Symbol.outlookBehind text.toList suffix.toList config hstop hlevels) hlevels
        config.recursionLimit).encoding.calm id (within hstop) trivial
          (mangledName_unmarked (htree ▸ hname))
      obtain ⟨last,hmarked,hlast⟩ := (cloneSuffix_reads_marks after.templateArgsAllowed
        after.substitutions hne hmarks).results (after.followedBy suffix.toList)
          ⟨by simp [Context.followedBy,Cursor.followedBy,hend,hsuffix],rfl,rfl⟩
      rw [← hsuffix,String.ofList_toList] at hmarked
      rw [(hopened.append hsize).parse_eq (mangledName_marked hwide hmarked hdot) hlast.cursor,
        hlast.substitutions,hsymbol]
    · exact Symbol.parse_tooLarge (by omega)

def unsuffixed? : Node → Option Node
  | .mangledName encoding none => some encoding
  | _ => none

theorem unsuffixed?_eq {tree encoding : Node} (h : unsuffixed? tree = some encoding) :
    tree = .mangledName encoding none := by
  unfold unsuffixed? at h
  split at h
  · cases h
    rfl
  · cases h

theorem tails_leave_symbols_alone_function :
    ¬SpellsLevels "_Z1fv".toList ∧ ∃ symbol encoding, Symbol.parse "_Z1fv" .standard = .ok symbol ∧
      symbol.tree = .mangledName encoding none ∧
      Symbol.parseWithTail "_Z1fv and more" .standard = .ok (symbol," and more") ∧
      Symbol.parse "_Z1fv.part.0" .standard =
        .ok ⟨"_Z1fv.part.0",.mangledName encoding (some ".part.0"),symbol.substitutions⟩ := by
  have hlevels : ¬SpellsLevels "_Z1fv".toList := not_spellsLevels_of_not_mem (by decide)
  have hfound : ((Symbol.parse "_Z1fv" .standard).toOption.bind fun symbol =>
      unsuffixed? symbol.tree).isSome = true := by decide +kernel
  cases hread : Symbol.parse "_Z1fv" .standard with
  | error fault =>
    rw [hread] at hfound
    cases hfound
  | ok symbol =>
    rw [hread] at hfound
    obtain ⟨encoding,hencoding⟩ := Option.isSome_iff_exists.mp hfound
    have htree := unsuffixed?_eq hencoding
    have htails := tails_leave_symbols_alone "_Z1fv" .standard _ hlevels hread
    have hmarks : IsCloneSuffix ".part.0" := by
      refine ⟨[['.','p','a','r','t'],['.','0']],by simp,?_,rfl⟩
      simp only [List.mem_cons,List.not_mem_nil,or_false,forall_eq_or_imp,forall_eq]
      exact ⟨.word (by decide) (List.all_eq_true.mp (by decide)),.number (by decide) (by simp)⟩
    refine ⟨hlevels,_,encoding,rfl,htree,htails.1 " and more" (by decide) (by decide),?_⟩
    exact (htails.2 encoding htree ".part.0" hmarks).trans (if_pos (by decide))

end MangledNames
