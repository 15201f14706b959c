import MangledNames.Proofs.Grammar.SoundExpressions
import MangledNames.Grammar.Production
set_option autoImplicit false

/-!
Encodings and complete symbols read on and give sound nodes, and so do all productions with any
number of levels of nesting.
-/

namespace MangledNames.Grammar

open Cursor

theorem atEncodingEnd_runs : Runs 0 (liftM atEncodingEnd : Parser Bool) fun _ => True :=
  scanning_runs ((peekIs_runs isTypeStart 0).first fun _ _ => Runs.pure trivial)

theorem callOffset_runs (letter : Char) (before : Cursor) :
    Runs 1 (callOffset letter before) fun _ => True := by
  unfold callOffset
  split
  · exact (number_runs _).first fun _ _ => (expect_runs "_" _ (Nat.zero_le _)).first fun _ _ =>
      Runs.pure trivial
  · exact (number_runs _).first fun _ _ => (expect_runs "_" _ (Nat.zero_le _)).first fun _ _ =>
      (number_runs _).rest.first fun _ _ => (expect_runs "_" _ (Nat.zero_le _)).first fun _ _ =>
        Runs.pure trivial
  · exact Cursor.fail_runs rfl

theorem announcedCallOffset_runs : Runs 1 announcedCallOffset fun _ => True := by
  unfold announcedCallOffset
  exact Cursor.get_runs.andThen fun before _ => (next_runs _).first fun letter _ =>
    (callOffset_runs letter before).rest

/-- A special name spells as many offsets as its kind has. -/
theorem callOffsets_runs (kind : SpecialNameKind) :
    Runs 0 (callOffsets kind) fun offsets => offsets.length = kind.offsetCount := by
  have single : ∀ letter : Char, Runs 0 (do return [← callOffset letter (← get)] : Scan _)
      fun offsets : List CallOffset => offsets.length = 1 :=
    fun letter => Cursor.get_runs.first fun before _ =>
      (callOffset_runs letter before).rest.first fun _ _ => Runs.pure rfl
  unfold callOffsets
  split
  · exact single 'h'
  · exact single 'v'
  · exact announcedCallOffset_runs.rest.first fun _ _ => announcedCallOffset_runs.rest.first
      fun _ _ => Runs.pure rfl
  · rename_i hplain hvirtual hcovariant
    refine Runs.pure ?_
    cases kind <;> first | rfl | contradiction

theorem cloneMark_ne_nil {rest : List Char} (h : (cloneMark rest).isEmpty = false) :
    ∃ tail, rest = '.' :: tail := by
  unfold cloneMark at h
  split at h
  · exact ⟨_,rfl⟩
  · cases h

theorem takeChars_runsAt {n : Nat} (h : 1 ≤ n) (production : String) :
    RunsAt (some '.') 1 (liftM (takeChars n production) : Parser (List Char))
      fun mark => mark.head? = some '.' := by
  refine scanning_runsAt fun c hc => ?_
  refine (takeChars_ends n production c).imp ?_ fun _ _ ht => ht
  rintro (_ | ⟨x,found⟩) t ⟨hn,hp,hr⟩
  · simp at hn
    omega
  · refine ⟨⟨_,hp,hr⟩,?_,by simpa [hr] using hc⟩
    simp [position,hp]
    omega

theorem cloneSuffix_runs :
    Runs 0 cloneSuffix fun suffix => ∀ text, suffix = some text → text.toList.head? = some '.' := by
  unfold cloneSuffix
  refine Runs.first (p := fun marks => ∀ mark ∈ marks, mark.head? = some '.') ?_ fun marks h => ?_
  · refine repeatRound_runs (i := fun marks => ∀ mark ∈ marks, mark.head? = some '.') (by simp) ?_
    refine fun marks hmarks => ⟨fun context hc => ?_⟩
    let item : Parser (List Char) := do
      takeChars (cloneMark (← here).rest).length "clone suffix"
    change Ends _ _ ((if (cloneMark context.cursor.rest).isEmpty = true
      then pure (.done marks.reverse)
      else item >>= fun mark => pure (.again (mark :: marks)) :
        Parser (Round (List (List Char)) (List (List Char)))) context)
    cases hempty : (cloneMark context.cursor.rest).isEmpty with
    | true => exact ⟨.refl context,by simpa [RoundGood] using hmarks⟩
    | false =>
      obtain ⟨tail,htail⟩ := cloneMark_ne_nil hempty
      have hlength : 1 ≤ (cloneMark context.cursor.rest).length := by
        cases hmark : cloneMark context.cursor.rest with
        | nil => simp [hmark] at hempty
        | cons => simp
      have hitem := takeChars_runsAt hlength "clone suffix" context hc (by simp [htail])
      refine Ends.bind (m := item) hitem fun mark t h => ?_
      obtain ⟨ht,hpos,hmark⟩ := h
      exact ⟨ht,hpos,by simpa [hmark] using hmarks⟩
  · refine Runs.pure ?_
    cases marks with
    | nil => simp
    | cons mark marks =>
      rintro text ⟨rfl⟩
      have hmark := h mark (by simp)
      cases mark with
      | nil => cases hmark
      | cons c mark => simpa using hmark

section
variable {r : Rules} (hr : r.Sound)
include hr

theorem encodingParameters_runs :
    Runs 0 (encodingParameters r) fun nodes => ∀ node ∈ nodes, node.Sound := by
  unfold encodingParameters
  refine (consumed_runs "v").first fun _ _ => Runs.ite (fun _ => Runs.pure (by simp)) fun _ => ?_
  refine hr.type.rest.first fun first hfirst =>
    (itemsUntil_runs atEncodingEnd_runs hr.type).first fun others hothers => Runs.pure ?_
  simpa [hfirst] using hothers

theorem functionEncoding_runs :
    Runs 1 (functionEncoding r) fun node => ∃ e, node = .encoding e ∧ node.Sound := by
  unfold functionEncoding
  refine hr.name.first fun named hname => atEncodingEnd_runs.first fun _ _ => Runs.ite
    (fun _ => Runs.pure ⟨_,rfl,hname,trivial⟩) fun _ => ?_
  have signed : ∀ returnType : Option Node, Node.OptionSound returnType → Runs 0 (do
      let parameters ← encodingParameters r
      return .encoding ⟨named.node, some {
        returnType := returnType
        parameters := parameters
        cv := named.traits.cv
        ref := named.traits.ref }⟩ : Parser Node) fun node =>
          ∃ e, node = .encoding e ∧ node.Sound :=
    fun returnType h => (encodingParameters_runs hr).first fun parameters hparameters =>
      Runs.pure ⟨_,rfl,hname,h,Node.allSound_iff.mpr hparameters⟩
  refine (lookedAt_runs "Ua9enable_ifI").first fun _ _ => Runs.ite (fun _ => ?_) fun _ => Runs.ite
    (fun _ => ?_) fun _ => ?_
  · exact here_runs.first fun _ _ => (fail_runs (p := fun _ => False) _).failing
  · exact (hr.type.rest.map (f := some) (g := Node.OptionSound) fun _ h => h).first signed
  · exact (Runs.pure (a := none) (p := Node.OptionSound) trivial).first signed

theorem encoding_runs : Runs 1 (encoding r) Node.Sound := by
  unfold encoding
  refine (peeked_runs _ 0).andThen fun _ _ => Runs.ite (fun _ => hr.specialName) fun _ => ?_
  exact (functionEncoding_runs hr).imp fun _ ⟨_,_,h⟩ => h

theorem encoding_runsAt {next : Option Char}
    (h : next.any (fun c => c == 'T' || c == 'G') = false) :
    RunsAt next 1 (encoding r) fun node => ∃ e, node = .encoding e ∧ node.Sound := by
  rintro context hc rfl
  have hfunction : encoding r context = functionEncoding r context := by
    change (if context.cursor.rest[0]?.any (fun c => c == 'T' || c == 'G') = true
      then r.specialName else functionEncoding r : Parser Node) context = _
    rw [h]
    rfl
  rw [hfunction]
  exact (functionEncoding_runs hr).ends context hc

theorem specialTarget_runs (kind : SpecialNameKind) : Runs 1 (specialTarget r kind) Node.Sound := by
  unfold specialTarget
  split
  all_goals first
    | exact hr.type
    | exact hr.name.map fun _ h => h
    | exact hr.templateArg
    | exact hr.encoding

theorem referenceTemporary_runs : Runs 1 (referenceTemporary r) Node.Sound := by
  unfold referenceTemporary
  refine hr.name.first fun named h => (consumed_runs "_").first fun _ _ => Runs.ite
    (fun _ => Runs.pure h) fun _ => ?_
  exact (scanning_runs (seqId_runs _)).rest.first fun _ _ => (literal_runs "_" _).first
    fun _ _ => Runs.pure h

theorem constructionVtable_runs : Runs 1 (constructionVtable r) Node.Sound := by
  unfold constructionVtable
  exact hr.type.first fun _ hcomplete => (scanning_runs (number_runs _)).rest.first fun _ _ =>
    (literal_runs "_" _).first fun _ _ => hr.type.rest.first fun _ hbase =>
      Runs.pure ⟨hcomplete,hbase⟩

theorem specialName_runs : Runs 1 (specialName r) Node.Sound := by
  unfold specialName
  refine consumed_else (by decide) (referenceTemporary_runs hr).rest (consumed_else (by decide)
    (constructionVtable_runs hr).rest (here_runs.andThen fun start _ => ?_))
  split
  · rename_i kind _
    refine (scanning_runs (takeChars_runs _ _)).rest.andThen fun _ _ =>
      (scanning_runs (callOffsets_runs kind)).andThen fun offsets hoffsets =>
        (specialTarget_runs hr kind).first fun target htarget => ?_
    exact build_runs _ (by simp [Node.wellFormed,hoffsets]) ⟨hoffsets,htarget⟩
  · split
    · exact fail_runs _
    · exact fail_runs _

theorem mangledName_runs : Runs 1 (mangledName r) Node.Sound := by
  unfold mangledName
  refine hr.encoding.first fun encoding h => cloneSuffix_runs.first fun suffix hsuffix => ?_
  cases suffix with
  | none => exact build_runs _ rfl h
  | some text =>
    have hdot := hsuffix text rfl
    exact build_runs _ (by simp [Node.wellFormed,hdot]) ⟨hdot,h⟩

theorem wholeSymbol_runs : Runs 1 (wholeSymbol r) Node.Sound := by
  unfold wholeSymbol
  exact (mangledName_runs hr).first fun name h => (scanning_runs atEnd_runs).first fun _ _ =>
    Runs.guardNot (unexpected_runs _) (Runs.pure h)

theorem Rules.next_sound : r.next.Sound where
  encoding := nested_runs (encoding_runs hr)
  function _ h := nested_runsAt (encoding_runsAt hr h)
  specialName := nested_runs (specialName_runs hr)
  name := nested_runs (name_runs hr)
  nestedName := nested_runs (nestedName_runs hr)
  localName := nested_runs (localName_runs hr)
  unqualifiedName := nested_runs (unqualifiedName_runs hr)
  templateArgs := nested_runs (templateArgs_runs hr)
  templateArg := nested_runs (templateArg_runs hr)
  type := nested_runs (type_runs hr)
  expression := nested_runs (expression_runs hr)
  exprPrimary := nested_runs (exprPrimary_runs hr)
  unresolvedName globalScope := nested_runs (unresolvedName_runs hr globalScope)

end

theorem limitReached_runs {α : Type} {n : Nat} {p : α → Prop} :
    Runs n (limitReached : Parser α) p :=
  ⟨fun context _ => ⟨.refl context,_,rfl⟩⟩

theorem Rules.exhausted_sound : Rules.exhausted.Sound where
  encoding := limitReached_runs
  function _ _ := .of_runs limitReached_runs
  specialName := limitReached_runs
  name := limitReached_runs
  nestedName := limitReached_runs
  localName := limitReached_runs
  unqualifiedName := limitReached_runs
  templateArgs := limitReached_runs
  templateArg := limitReached_runs
  type := limitReached_runs
  expression := limitReached_runs
  exprPrimary := limitReached_runs
  unresolvedName _ := limitReached_runs

/-- However many levels are left, productions keep all promises. -/
theorem Rules.levels_sound (n : Nat) : (Rules.levels n).Sound := by
  induction n with
  | zero => exact Rules.exhausted_sound
  | succ n ih => exact Rules.next_sound ih

end MangledNames.Grammar
