import MangledNames.Proofs.Run
import MangledNames.Proofs.Cursor
import MangledNames.Proofs.Numeral
import MangledNames.Grammar.Template
set_option autoImplicit false

/-!
Reading a known text: what scans and the ways to put productions together come to when the text
ahead is given.
-/

namespace MangledNames

namespace Cursor

/-- The text that is still to be read. -/
def At (rest : List Char) (c : Cursor) : Prop := c.rest = rest

theorem At.eq {rest : List Char} {c : Cursor} (h : At rest c) : c = ⟨c.passed,rest⟩ := by
  cases h
  rfl

theorem get_then {β : Type} {rest : List Char} {q : Cursor → Scan β} {b : β} {last : Cursor → Prop}
    (h : ∀ c, At rest c → Gives (q c) (At rest) b last) : Gives (get >>= q) (At rest) b last :=
  ⟨fun c hc => (h c hc).results c hc⟩

theorem skip?_eq_none {literal : List Char} {c : Cursor} (h : literal.isPrefixOf c.rest = false) :
    skip? literal c = none := by
  cases hs : skip? literal c with
  | none => rfl
  | some after =>
    obtain ⟨_,hr⟩ := skip?_eq_some hs
    have hstarts : literal.isPrefixOf c.rest = true :=
      List.isPrefixOf_iff_prefix.mpr ⟨after.rest,hr.symm⟩
    rw [hstarts] at h
    cases h

theorem consume_gives (literal : String) (rest : List Char) :
    Gives (consume literal) (At (literal.toList ++ rest)) true (At rest) := by
  refine ⟨fun c hc => ⟨⟨literal.toList.reverse ++ c.passed,rest⟩,?_,rfl⟩⟩
  rw [hc.eq,consume_apply,skip?_append]

theorem consume_refuses {literal : String} {rest : List Char}
    (h : literal.toList.isPrefixOf rest = false) :
    Gives (consume literal) (At rest) false (At rest) := by
  refine ⟨fun c hc => ⟨c,?_,hc⟩⟩
  cases hc
  rw [consume_apply,skip?_eq_none h]

theorem expect_gives (literal production : String) (rest : List Char) :
    Gives (expect literal production) (At (literal.toList ++ rest)) ⟨⟩ (At rest) := by
  unfold expect
  exact (consume_gives literal rest).bind .pure

theorem atEnd_gives {rest : List Char} : Gives atEnd (At rest) rest.isEmpty (At rest) :=
  ⟨fun c hc => ⟨c,by cases hc; rfl,hc⟩⟩

theorem peek_gives (distance : Nat) {rest : List Char} :
    Gives (peek distance) (At rest) rest[distance]? (At rest) :=
  ⟨fun c hc => ⟨c,by cases hc; rfl,hc⟩⟩

theorem peekIs_gives {ofClass : Char → Bool} {distance : Nat} {rest : List Char} {found : Bool}
    (h : rest[distance]?.any ofClass = found) :
    Gives (peekIs ofClass distance) (At rest) found (At rest) :=
  ⟨fun c hc => ⟨c,by cases hc; cases h; rfl,hc⟩⟩

theorem lookingAt_gives {literal : String} {rest : List Char} {found : Bool}
    (h : literal.toList.isPrefixOf rest = found) :
    Gives (lookingAt literal) (At rest) found (At rest) :=
  ⟨fun c hc => ⟨c,by cases hc; cases h; rfl,hc⟩⟩

theorem next_gives (production : String) (x : Char) (rest : List Char) :
    Gives (next production) (At (x :: rest)) x (At rest) := by
  refine ⟨fun c hc => ⟨⟨x :: c.passed,rest⟩,?_,rfl⟩⟩
  rw [hc.eq]
  rfl

theorem takeCode_gives (production : String) (x y : Char) (rest : List Char) :
    Gives (takeCode production) (At (x :: y :: rest)) (x,y) (At rest) := by
  refine ⟨fun c hc => ⟨⟨y :: x :: c.passed,rest⟩,?_,rfl⟩⟩
  rw [hc.eq]
  rfl

theorem advance?_append (found passed rest : List Char) :
    advance? found.length ⟨passed,found ++ rest⟩ = some ⟨found.reverse ++ passed,rest⟩ := by
  induction found generalizing passed with
  | nil => rfl
  | cons c found ih => simp [advance?,ih]

theorem takeChars_gives (found : List Char) (production : String) (rest : List Char) :
    Gives (takeChars found.length production) (At (found ++ rest)) found (At rest) := by
  refine ⟨fun c hc => ⟨⟨found.reverse ++ c.passed,rest⟩,?_,rfl⟩⟩
  rw [hc.eq]
  simp [takeChars,advance?_append]

theorem takeWhile_append {ofClass : Char → Bool} {found rest : List Char}
    (hfound : ∀ c ∈ found, ofClass c = true) (hrest : rest.head?.any ofClass = false) :
    (found ++ rest).takeWhile ofClass = found := by
  rw [List.takeWhile_append_of_pos hfound]
  cases rest with
  | nil => simp
  | cons c rest =>
    have hc : ofClass c = false := hrest
    simp [hc]

theorem digits_gives {found rest : List Char} (production : String) (hne : found ≠ [])
    (hfound : ∀ c ∈ found, isDigit c = true) (hrest : rest.head?.any isDigit = false) :
    Gives (digits production) (At (found ++ rest)) found (At rest) := by
  refine ⟨fun c hc => ⟨⟨found.reverse ++ c.passed,rest⟩,?_,rfl⟩⟩
  rw [hc.eq]
  have htake := takeWhile_append hfound hrest
  have hadvance := advance_eq found c.passed rest
  cases found with
  | nil => exact absurd rfl hne
  | cons x found =>
    simp only [List.cons_append] at htake hadvance
    simpa [digits,htake] using hadvance

theorem unsigned_gives (production : String) {n : Nat} (hn : n < 10 ^ numberDigitsMax)
    {rest : List Char} (hrest : rest.head?.any isDigit = false) :
    Gives (unsigned production) (At (spelled 10 n ++ rest)) n (At rest) := by
  unfold unsigned
  have hlength : ¬(spelled 10 n).length > numberDigitsMax := by
    have := spelled_length_le (by decide) (by decide) hn
    omega
  have hdigits := digits_gives production (spelled_ne_nil n) (isDigit_spelled n) hrest
  have hvalue := numeral_spelled (show 1 < 10 by decide) (by decide) n
  refine ⟨fun c hc => ?_⟩
  obtain ⟨t,ht,hrest⟩ := hdigits.results c hc
  refine ⟨t,?_,hrest⟩
  rw [bind_apply,get_apply]
  simp only [bind_apply,ht,if_neg hlength]
  rw [pure_apply,hvalue]

end Cursor

namespace Grammar

open Cursor (consume_gives consume_refuses expect_gives lookingAt_gives peekIs_gives)

/-- The text that is still to be read, the table so far, and whether arguments after the names of
types belong to these. -/
structure At (allowed : Bool) (rest : List Char) (table : Substitutions) (context : Context) :
    Prop where
  cursor : context.cursor.rest = rest
  substitutions : context.substitutions = table
  templateArgsAllowed : context.templateArgsAllowed = allowed

/-- As `At`, while no trial is going on. -/
structure OffTrial (allowed : Bool) (rest : List Char) (table : Substitutions)
    (context : Context) : Prop
    extends At allowed rest table context where
  speculative : context.speculative = false

/-- From `rest` and `table` the production comes to `a`, and leaves `rest'` and `table'`. -/
abbrev Reads {α : Type} (allowed : Bool) (m : Parser α) (rest : List Char)
    (table : Substitutions) (a : α) (rest' : List Char) (table' : Substitutions) : Prop :=
  Gives m (At allowed rest table) a (At allowed rest' table')

section
variable {α β : Type} {allowed : Bool} {m : Parser α} {rest rest' rest'' : List Char}
  {table table' table'' : Substitutions} {a : α} {b : β}

theorem Reads.whileOff (h : Reads allowed m rest table a rest' table') :
    Gives m (OffTrial allowed rest table) a (At allowed rest' table') :=
  h.imp (fun _ hc => hc.toAt) fun _ hc => hc

theorem scanned {scan : Scan α} (h : Gives scan (Cursor.At rest) a (Cursor.At rest')) :
    Reads allowed (liftM scan) rest table a rest' table := by
  refine ⟨fun context hc => ?_⟩
  obtain ⟨cursor,hscan,hcursor⟩ := h.results context.cursor hc.cursor
  refine ⟨{ context with cursor := cursor },?_,hcursor,hc.substitutions,hc.templateArgsAllowed⟩
  change scanning scan context = _
  unfold scanning
  rw [hscan]

theorem here_then {q : Cursor → Parser β}
    (h : ∀ c, c.rest = rest → Reads allowed (q c) rest table b rest' table') :
    Reads allowed (here >>= q) rest table b rest' table' :=
  ⟨fun context hc => (h context.cursor hc.cursor).results context hc⟩

theorem get_then {q : Context → Parser β}
    (h : ∀ context, At allowed rest table context →
      Reads allowed (q context) rest table b rest' table') :
    Reads allowed (get >>= q) rest table b rest' table' :=
  ⟨fun context hc => (h context hc).results context hc⟩

theorem remember_reads (node : Node) :
    Reads allowed (remember node) rest table ⟨⟩ rest (table.append node) :=
  ⟨fun _ hc => ⟨_,rfl,hc.cursor,congrArg (·.append node) hc.substitutions,hc.templateArgsAllowed⟩⟩

theorem remembered_reads {component : Parser Node} {node : Node}
    (h : Reads allowed component rest table node rest' table') :
    Reads allowed (remembered component) rest table node rest' (table'.append node) :=
  h.bind ((remember_reads node).bind .pure)

theorem nested_reads (h : Reads allowed m rest table a rest' table') :
    Reads allowed (nested m) rest table a rest' table' := by
  refine ⟨fun context hc => ?_⟩
  obtain ⟨after,hm,hafter⟩ := h.results { context with depth := context.depth + 1 }
    ⟨hc.cursor,hc.substitutions,hc.templateArgsAllowed⟩
  refine ⟨{ after with depth := context.depth },?_,hafter.cursor,hafter.substitutions,
    hafter.templateArgsAllowed⟩
  unfold nested
  rw [hm]

theorem allowingTemplateArgs_reads {inside : Bool} (h : Reads inside m rest table a rest' table') :
    Reads allowed (allowingTemplateArgs inside m) rest table a rest' table' := by
  refine ⟨fun context hc => ?_⟩
  obtain ⟨after,hm,hafter⟩ := h.results { context with templateArgsAllowed := inside }
    ⟨hc.cursor,hc.substitutions,rfl⟩
  refine ⟨{ after with templateArgsAllowed := context.templateArgsAllowed },?_,hafter.cursor,
    hafter.substitutions,hc.templateArgsAllowed⟩
  unfold allowingTemplateArgs
  rw [hm]

theorem build_reads {node : Node} (h : node.wellFormed = true) :
    Reads allowed (build node) rest table node rest table :=
  .ifPos h .pure

end

section
variable {α β : Type} {allowed : Bool} {round : α → Parser (Round α β)}

/-- What rounds of a repetition come to, each of which reads something. -/
inductive Rounds (allowed : Bool) (round : α → Parser (Round α β)) :
    α → List Char → Substitutions → α → List Char → Substitutions → Prop
  | none (a : α) (rest : List Char) (table : Substitutions) :
    Rounds allowed round a rest table a rest table
  | one {a a' : α} {rest rest' : List Char} {table table' : Substitutions} :
    Reads allowed (round a) rest table (.again a') rest' table' → rest'.length < rest.length →
    Rounds allowed round a rest table a' rest' table'
  | more {a a' a'' : α} {rest rest' rest'' : List Char} {table table' table'' : Substitutions} :
    Rounds allowed round a rest table a' rest' table' →
    Rounds allowed round a' rest' table' a'' rest'' table'' →
    Rounds allowed round a rest table a'' rest'' table''

theorem Rounds.within {a a' : α} {rest rest' : List Char} {table table' : Substitutions}
    (h : Rounds allowed round a rest table a' rest' table') (bound : List Char)
    (hbound : rest.length ≤ bound.length) :
    ∃ bound' : List Char, rest'.length ≤ bound'.length ∧
      ∀ {b : β} {last : List Char} {table'' : Substitutions},
        Reads allowed (repeatWithin round bound' a') rest' table' b last table'' →
        Reads allowed (repeatWithin round bound a) rest table b last table'' := by
  induction h generalizing bound with
  | none a rest table => exact ⟨bound,hbound,id⟩
  | one hround hless =>
    cases bound with
    | nil =>
      simp only [List.length_nil] at hbound
      omega
    | cons c bound =>
      refine ⟨bound,?_,fun hb => ?_⟩
      · simp only [List.length_cons] at hbound
        omega
      · unfold repeatWithin
        exact hround.bind hb
  | more _ _ ih ih' =>
    obtain ⟨bound',hbound',hfirst⟩ := ih bound hbound
    obtain ⟨bound'',hbound'',hsecond⟩ := ih' bound' hbound'
    exact ⟨bound'',hbound'',fun hb => hfirst (hsecond hb)⟩

theorem repeatRound_reads {a a' : α} {b : β} {rest rest' last : List Char}
    {table table' table'' : Substitutions} (h : Rounds allowed round a rest table a' rest' table')
    (hdone : Reads allowed (round a') rest' table' (.done b) last table'') :
    Reads allowed (repeatRound round a) rest table b last table'' := by
  refine here_then fun c hc => ?_
  obtain ⟨bound',_,hrounds⟩ := h.within c.rest (by rw [hc])
  refine hrounds ?_
  unfold repeatWithin
  exact hdone.bind .pure

end

section
variable {α : Type} {allowed : Bool} {item : Parser α} {opens : α → List Char → Prop}

/-- Items that follow each other. Each of them starts as `opens` says and reads something. -/
inductive Items (allowed : Bool) (item : Parser α) (opens : α → List Char → Prop) :
    List Char → Substitutions → List α → List Char → Substitutions → Prop
  | nil (rest : List Char) (table : Substitutions) :
    Items allowed item opens rest table [] rest table
  | cons {a : α} {as : List α} {rest rest' rest'' : List Char}
    {table table' table'' : Substitutions} : opens a rest →
    Reads allowed item rest table a rest' table' →
    rest'.length < rest.length → Items allowed item opens rest' table' as rest'' table'' →
    Items allowed item opens rest table (a :: as) rest'' table''

theorem Items.map {item' : Parser α} {as : List α} {rest rest' : List Char}
    {table table' : Substitutions} (h : Items allowed item opens rest table as rest' table')
    (hitem : ∀ {rest table a rest' table'}, opens a rest →
      Reads allowed item rest table a rest' table' →
      Reads allowed item' rest table a rest' table') :
    Items allowed item' opens rest table as rest' table' := by
  induction h with
  | nil rest table => exact .nil rest table
  | cons hopen hread hless _ ih => exact .cons hopen (hitem hopen hread) hless ih

theorem itemsUntil_reads {listEnd : Parser Bool} {as : List α} {rest rest' last : List Char}
    {table table' table'' : Substitutions} (h : Items allowed item opens rest table as rest' table')
    (hgo : ∀ a rest table, opens a rest → Reads allowed listEnd rest table false rest table)
    (hend : Reads allowed listEnd rest' table' true last table'') :
    Reads allowed (itemsUntil listEnd item) rest table as last table'' := by
  have rounds : ∀ before : List α, Rounds allowed (fun items => do
      if ← listEnd then return Round.done items.reverse
      return Round.again ((← item) :: items)) before rest table
        (as.reverse ++ before) rest' table' := by
    induction h with
    | nil rest table => exact fun before => .none before rest table
    | @cons a as _ _ _ _ _ _ hopen hread hless _ ih =>
      intro before
      rw [List.reverse_cons,List.append_assoc]
      refine .more (.one ?_ hless) (ih hend (a :: before))
      exact (hgo _ _ _ hopen).bind (hread.bind .pure)
  refine repeatRound_reads (rounds []) ?_
  have hdone : (as.reverse ++ []).reverse = as := by simp
  refine hend.bind ?_
  rw [hdone]
  exact .pure

theorem itemsToE_reads {as : List α} {rest last : List Char} {table table' : Substitutions}
    (h : Items allowed item opens rest table as ('E' :: last) table')
    (hopens : ∀ a rest, opens a rest → rest.head? ≠ some 'E') :
    Reads allowed (itemsToE item) rest table as last table' := by
  refine itemsUntil_reads h (fun a rest table hopen => scanned (consume_refuses ?_))
    (scanned (consume_gives "E" last))
  have hhead := hopens a rest hopen
  cases rest with
  | nil => rfl
  | cons c rest =>
    have hc : c ≠ 'E' := by simpa using hhead
    change ('E' == c && _) = false
    simp [Ne.symm hc]

end

end Grammar

end MangledNames
