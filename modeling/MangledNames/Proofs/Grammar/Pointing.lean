import MangledNames.Proofs.Grammar.Reading
import MangledNames.Proofs.Numeral
set_option autoImplicit false

/-!
Errors point at the text they talk about: what that means, and what the ways to read keep of it.
-/

namespace MangledNames

/-- A text that is read from some place on. -/
structure Region where
  text : List Char
  start : Nat

/-- What stands behind the `S` of the back reference with this index. Leading zeros do not count. -/
inductive SpellsIndex : Int → List Char → Prop
  | first : SpellsIndex 0 ['_']
  | later (zeros number : Nat) :
    SpellsIndex (number + 1) (List.replicate zeros '0' ++ spelled 36 number ++ ['_'])

/-- What the error says of the text stands there. -/
def DemangleError.PointsInto (g : Region) : DemangleError → Prop
  | unexpectedEnd _ offset => offset = g.text.length
  | unexpectedToken _ offset token =>
    g.start ≤ offset ∧ token ≠ "" ∧ token.toList <+: g.text.drop offset
  | badBackReference index size offset =>
    size ≤ index ∧ ∃ code, SpellsIndex index code ∧ 'S' :: code <+: g.text.drop offset
  | unsupportedExtension _ offset => offset < g.text.length
  | _ => True

/-- A constructor that is taken over is quoted without the letter that says so. -/
def DemangleError.Misquotes (g : Region) : DemangleError → Prop
  | unexpectedToken production offset token =>
    production = "constructor or destructor" ∧ g.start ≤ offset ∧
      ∃ kind, token = String.ofList ['C',kind] ∧ ['C','I',kind] <+: g.text.drop offset
  | _ => False

/-- The text is rightly quoted, but for the constructors that are taken over. -/
def Fault.Tells (g : Region) : Fault → Prop
  | error e => e.PointsInto g ∨ e.Misquotes g
  | broken _ => True

namespace Region

variable {g : Region} {c after : Cursor}

/-- The cursor stands in the text, not before the place where reading began. -/
structure Contains (g : Region) (c : Cursor) : Prop where
  text : c.text = g.text
  start : g.start ≤ c.position

theorem Contains.of_leads (h : g.Contains c) (hleads : c.Leads after) : g.Contains after :=
  ⟨hleads.text_eq ▸ h.text,h.start.trans hleads.position_le⟩

theorem Contains.back (h : g.Contains c) {n : Nat} (hn : n ≤ c.position)
    (hstart : g.start ≤ c.position - n) :
    g.Contains (Cursor.back n c) := by
  obtain ⟨passed,rest⟩ := c
  replace hn : n ≤ passed.length := hn
  have hback := Cursor.back_eq (passed.take n) (passed.drop n) rest
  rw [List.take_append_drop,List.length_take,Nat.min_eq_left hn] at hback
  rw [hback]
  refine ⟨?_,by simpa [Cursor.position] using hstart⟩
  rw [← h.text,Cursor.text,Cursor.text,← List.append_assoc,← List.reverse_append,
    List.take_append_drop]

theorem Contains.drop (h : g.Contains c) : g.text.drop c.position = c.rest := by
  have hposition : c.position = c.passed.reverse.length := by simp [Cursor.position]
  rw [← h.text,hposition,Cursor.text,List.drop_left]

theorem Contains.length (h : g.Contains c) : c.length = g.text.length := by
  rw [← h.text]
  simp [Cursor.length,Cursor.text]

theorem Contains.points_end (h : g.Contains c) (production : String) :
    (DemangleError.unexpectedEnd production c.length).PointsInto g := h.length

theorem Contains.points_token (h : g.Contains c) (production : String) {x : Char}
    (token : List Char) (htoken : x :: token <+: c.rest) :
    (DemangleError.unexpectedToken production c.position
      (String.ofList (x :: token))).PointsInto g := by
  refine ⟨h.start,fun hempty => ?_,by rwa [h.drop,String.toList_ofList]⟩
  have hlist := congrArg String.toList hempty
  rw [String.toList_ofList] at hlist
  cases hlist

theorem Contains.points_extension (h : g.Contains c) (extension : String) (hrest : c.rest ≠ []) :
    (DemangleError.unsupportedExtension extension c.position).PointsInto g := by
  have hlength := h.length
  have hpos := List.length_pos_of_ne_nil hrest
  simp only [DemangleError.PointsInto]
  simp only [Cursor.length,Cursor.position] at hlength ⊢
  omega

theorem Contains.points_unexpected (h : g.Contains c) (production : String) :
    (c.unexpectedAt production).PointsInto g := by
  have hlength := h.length
  unfold Cursor.unexpectedAt
  split
  · rename_i hrest
    simp only [Cursor.length,hrest] at hlength
    exact hlength
  · rename_i hrest
    exact h.points_token production [] (hrest ▸ by simp)

end Region

/-- States that stand at a place of a text. -/
class Placed (σ : Type) where
  place : σ → Cursor

instance : Placed Cursor := ⟨id⟩

instance : Placed Grammar.Context := ⟨Grammar.Context.cursor⟩

open Placed

section
variable {σ α β γ : Type} [Placed σ]

abbrev Region.Ends (g : Region) : EStateM.Result Fault σ α → Prop :=
  MangledNames.Ends (fun _ s => g.Contains (place s)) fun fault s =>
    g.Contains (place s) ∧ fault.Tells g

/-- A run that stays in the region, and whose faults tell what stands there. -/
structure Points (g : Region) (m : EStateM Fault σ α) : Prop where
  ends : ∀ s, g.Contains (place s) → g.Ends (m s)

structure PointsFrom (g : Region) (c : Cursor) (m : EStateM Fault σ α) : Prop where
  ends : ∀ s, place s = c → g.Ends (m s)

variable {g : Region} {c : Cursor} {m m' : EStateM Fault σ α} {q : α → EStateM Fault σ β}

namespace Points

theorem pure (a : α) : Points g (Pure.pure a : EStateM Fault σ α) := ⟨fun _ hs => hs⟩

theorem broken (promise : Promise) : Points g (throw (.broken promise) : EStateM Fault σ α) :=
  ⟨fun _ hs => ⟨hs,trivial⟩⟩

theorem error {e : DemangleError} (h : e.PointsInto g) :
    Points g (throw (.error e) : EStateM Fault σ α) :=
  ⟨fun _ hs => ⟨hs,.inl h⟩⟩

theorem bind (h : Points g m) (hq : ∀ a, Points g (q a)) : Points g (m >>= q) :=
  ⟨fun s hs => (h.ends s hs).bind fun a t ht => (hq a).ends t ht⟩

theorem map {f : α → β} (h : Points g m) : Points g (f <$> m) := by
  rw [map_eq_pure_bind]
  exact h.bind fun _ => .pure _

theorem ite {p : Prop} [Decidable p] (h : p → Points g m) (h' : ¬p → Points g m') :
    Points g (if p then m else m') := by
  split
  · exact h ‹_›
  · exact h' ‹_›

theorem guard {p : Prop} [Decidable p] {check : EStateM Fault σ PUnit}
    {next : PUnit → EStateM Fault σ α} (hcheck : Points g check) (hnext : Points g (next ⟨⟩)) :
    Points g (if p then check >>= next else next ⟨⟩) :=
  ite (fun _ => hcheck.bind fun _ => hnext) fun _ => hnext

theorem guardNot {p : Prop} [Decidable p] {check : EStateM Fault σ PUnit}
    {next : PUnit → EStateM Fault σ α} (hcheck : Points g check) (hnext : Points g (next ⟨⟩)) :
    Points g (if p then next ⟨⟩ else check >>= next) :=
  ite (fun _ => hnext) fun _ => hcheck.bind fun _ => hnext

theorem of_from (h : ∀ c, g.Contains c → PointsFrom g c m) : Points g m :=
  ⟨fun s hs => (h (place s) hs).ends s rfl⟩

end Points

namespace PointsFrom

theorem of_points (h : Points g m) (hc : g.Contains c) : PointsFrom g c m :=
  ⟨fun s hs => h.ends s (hs.symm ▸ hc)⟩

theorem error {e : DemangleError} (hc : g.Contains c) (h : e.PointsInto g) :
    PointsFrom g c (throw (.error e) : EStateM Fault σ α) := of_points (.error h) hc

theorem bind (h : PointsFrom g c m) (hq : ∀ a, Points g (q a)) : PointsFrom g c (m >>= q) :=
  ⟨fun s hs => (h.ends s hs).bind fun a t ht => (hq a).ends t ht⟩

theorem ite {p : Prop} [Decidable p] (h : p → PointsFrom g c m) (h' : ¬p → PointsFrom g c m') :
    PointsFrom g c (if p then m else m') := by
  split
  · exact h ‹_›
  · exact h' ‹_›

end PointsFrom

end

namespace Cursor

section
variable {α β : Type} {g : Region} {c : Cursor} {m : Scan α} {q : α → Scan β}

/-- A scan that keeps to the text, and whose faults tell what stands there. -/
theorem points_of_runs {n : Nat} {p : α → Prop} (h : Runs n m p)
    (hfault : ∀ c fault after, g.Contains c → m c = .error fault after → fault.Tells g) :
    Points g m := by
  refine ⟨fun c hc => ?_⟩
  have hends := h.ends c trivial
  cases hresult : m c with
  | ok a after =>
    rw [hresult] at hends
    exact hc.of_leads hends.1
  | error fault after =>
    rw [hresult] at hends
    exact ⟨hc.of_leads hends.1,hfault c fault after hc hresult⟩

theorem pointsFrom_bind (hc : g.Contains c) (h : Points g m)
    (hq : ∀ a after, m c = .ok a after → g.Contains after → PointsFrom g after (q a)) :
    PointsFrom g c (m >>= q) := by
  refine ⟨fun s hs => ?_⟩
  obtain rfl : s = c := hs
  have hends := h.ends s hc
  rw [bind_apply]
  cases hresult : m s with
  | ok a after =>
    rw [hresult] at hends
    exact (hq a after hresult hends).ends after rfl
  | error fault after =>
    rw [hresult] at hends
    exact hends

theorem points_get {q : Cursor → Scan β} (hq : ∀ c, g.Contains c → PointsFrom g c (q c)) :
    Points g (get >>= q) :=
  ⟨fun c hc => (hq c hc).ends c rfl⟩

theorem unexpected_points (production : String) : Points g (unexpected production : Scan α) :=
  points_get fun _ hc => .error hc (hc.points_unexpected production)

theorem look_points (look : List Char → α) : Points g (do return look (← get).rest : Scan α) :=
  ⟨fun _ hc => hc⟩

theorem atEnd_points : Points g atEnd := look_points List.isEmpty

theorem peek_points (distance : Nat) : Points g (peek distance) :=
  look_points fun rest => rest[distance]?

theorem peekIs_points (ofClass : Char → Bool) (distance : Nat) :
    Points g (peekIs ofClass distance) :=
  look_points fun rest => rest[distance]?.any ofClass

theorem lookingAt_points (literal : String) : Points g (lookingAt literal) :=
  look_points fun rest => literal.toList.isPrefixOf rest

theorem consume_points (literal : String) : Points g (consume literal) := by
  refine points_of_runs (consume_runs literal) fun c fault after _ hfault => ?_
  rw [consume_apply] at hfault
  split at hfault <;> cases hfault

theorem consumeAny_points (literals : List String) : Points g (consumeAny literals) := by
  induction literals with
  | nil => exact .pure _
  | cons literal others ih =>
    unfold consumeAny
    exact (consume_points literal).bind fun _ => .ite (fun _ => .pure _) fun _ => ih

theorem expect_points (literal production : String) : Points g (expect literal production) := by
  unfold expect
  exact (consume_points literal).bind fun _ => .ite (fun _ => .pure _) fun _ =>
    unexpected_points production

theorem next_points (production : String) : Points g (next production) := by
  refine points_of_runs (next_runs production) ?_
  rintro ⟨passed,_ | ⟨x,rest⟩⟩ fault after hc hfault
  · cases hfault
    exact .inl (hc.points_end production)
  · cases hfault

theorem takeChars_points (n : Nat) (production : String) : Points g (takeChars n production) := by
  refine points_of_runs (takeChars_runs n production) fun c fault after hc hfault => ?_
  cases htake : advance? n c with
  | none =>
    simp only [takeChars,bind_apply,get_apply,htake] at hfault
    cases hfault
    exact .inl (hc.points_end production)
  | some taken =>
    simp only [takeChars,bind_apply,get_apply,htake] at hfault
    cases hfault

theorem takeCode_points (production : String) : Points g (takeCode production) := by
  refine points_of_runs (takeCode_runs production) ?_
  rintro ⟨passed,_ | ⟨x,_ | ⟨y,rest⟩⟩⟩ fault after hc hfault
  · cases hfault
    exact .inl (hc.points_end production)
  · cases hfault
    exact .inl (hc.points_end production)
  · cases hfault

theorem takeUntil_points (delimiter production : String) :
    Points g (takeUntil delimiter production) := by
  refine points_of_runs (takeUntil_runs delimiter production) fun c fault after hc hfault => ?_
  cases hfound : skipUntil? delimiter.toList [] c with
  | none =>
    simp only [takeUntil,bind_apply,get_apply,hfound] at hfault
    cases hfault
    exact .inl (hc.points_end production)
  | some found =>
    simp only [takeUntil,bind_apply,get_apply,hfound] at hfault
    cases hfault

theorem digits_points (production : String) : Points g (digits production) := by
  unfold digits
  refine points_get fun c hc => ?_
  split
  · exact .of_points (unexpected_points production) hc
  · rename_i found hne
    have hleads := (advance_takeWhile isDigit c).1
    exact ⟨fun s hs => hc.of_leads hleads⟩

theorem unsigned_points (production : String) : Points g (unsigned production) := by
  unfold unsigned
  refine points_get fun c hc => pointsFrom_bind hc (digits_points production)
    fun found after hread hafter => ?_
  obtain ⟨hne,_,hrest⟩ := digits_ok hread
  obtain ⟨x,found,rfl⟩ := List.exists_cons_of_ne_nil hne
  refine .ite (fun _ => .bind (.error hafter (hc.points_token _ [] ?_)) fun _ => .pure _)
    fun _ => .of_points (.pure _) hafter
  simp [hrest]

theorem number_points (production : String) : Points g (number production) := by
  unfold number
  exact (consume_points "n").bind fun _ => (unsigned_points production).bind fun _ => .pure _

end

end Cursor

namespace Grammar

open Cursor

theorem seqId_ok {production : String} {number : Nat} {c after : Cursor}
    (h : seqId production c = .ok number after) :
    ∃ found, found ≠ [] ∧ (∀ x ∈ found, isSeqDigit x = true) ∧ number = numeral 36 found ∧
      c.rest = found ++ after.rest := by
  cases htake : c.rest.takeWhile isSeqDigit with
  | nil =>
    have hseq : seqId production c = Cursor.unexpected production c := by simp [seqId,htake]
    rw [hseq] at h
    cases h
  | cons x read =>
    simp only [seqId,bind_apply,get_apply,htake,set_apply,pure_apply] at h
    cases h
    refine ⟨x :: read,List.cons_ne_nil x read,?_,rfl,?_⟩
    · rw [← htake]
      exact List.all_eq_true.mp List.all_takeWhile
    · rw [← htake]
      exact rest_of_takeWhile isSeqDigit

/-- A number that is zero is spelled with zeros. -/
theorem head_of_numeral_zero {digits : List Char} (hne : digits ≠ [])
    (hdigits : ∀ c ∈ digits, isDigit c = true) (h : numeral 10 digits = 0) :
    ['0'] <+: digits := by
  induction digits using List.reverseRecOn with
  | nil => exact absurd rfl hne
  | append_singleton digits c ih =>
    rw [numeral_concat] at h
    by_cases hempty : digits = []
    · have hvalue : digitValue c = 0 := by omega
      have hc := (digitChar_digitValue (c := c) (by simp [isSeqDigit,hdigits c (by simp)])).2
      rw [hvalue] at hc
      subst hempty
      subst hc
      exact List.prefix_rfl
    · exact (ih hempty (fun d hd => hdigits d (by simp [hd])) (by omega)).trans
        (List.prefix_append _ _)
section
variable {g : Region} {α : Type}

theorem seqId_points (production : String) : Points g (seqId production) := by
  unfold seqId
  refine points_get fun c hc => ?_
  split
  · exact .of_points (Cursor.unexpected_points production) hc
  · have hleads := (advance_takeWhile isSeqDigit c).1
    exact ⟨fun s hs => hc.of_leads hleads⟩

theorem discriminator_points : Points g discriminator := by
  unfold discriminator
  refine (lookingAt_points _).bind fun _ => (peekIs_points _ _).bind fun _ => .ite
    (fun _ => (takeCode_points _).bind fun _ => .pure _) fun _ => (lookingAt_points _).bind fun _ =>
      (peekIs_points _ _).bind fun _ => .ite (fun _ => ?_) fun _ => .pure _
  exact (takeCode_points _).bind fun _ => (digits_points _).bind fun _ => expect_points _ _

theorem numberSuffix_points (production : String) : Points g (numberSuffix production) := by
  unfold numberSuffix
  exact (consume_points _).bind fun _ => .ite (fun _ => .pure _) fun _ =>
    (unsigned_points production).bind fun _ => (expect_points _ production).bind fun _ => .pure _

theorem identifier_points : Points g identifier := by
  unfold identifier
  refine points_get fun start hstart => pointsFrom_bind hstart (unsigned_points _)
    fun length after hread hafter => ?_
  obtain ⟨found,hne,hdigits,hlength,hrest⟩ := unsigned_ok hread
  have taken : Points g (do return String.ofList (← takeChars length "identifier") : Scan String) :=
    (takeChars_points length _).bind fun _ => .pure _
  refine .ite (fun hzero => .bind (.error hafter (hstart.points_token _ [] ?_)) fun _ => taken)
    fun _ => .of_points taken hafter
  rw [hrest]
  exact (head_of_numeral_zero hne hdigits (hlength ▸ hzero)).trans (List.prefix_append _ _)

theorem cvQualifiers_points : Points g cvQualifiers := by
  unfold cvQualifiers
  exact (consume_points _).bind fun _ => (consume_points _).bind fun _ =>
      (consume_points _).bind fun _ =>
    .pure _

theorem refQualifier_points : Points g refQualifier := by
  unfold refQualifier
  exact (consume_points _).bind fun _ => .ite (fun _ => .pure _) fun _ =>
      (consume_points _).bind fun _ =>
    .ite (fun _ => .pure _) fun _ => .pure _

end

section
variable {g : Region} {c : Cursor} {α β γ : Type} {m : Parser α}

theorem scanning_ends {reader : Scan α} {context : Context} (h : g.Ends (reader context.cursor)) :
    g.Ends ((liftM reader : Parser α) context) := by
  change g.Ends (scanning reader context)
  unfold scanning
  cases hread : reader context.cursor with
  | ok a cursor =>
    rw [hread] at h
    exact h
  | error fault cursor =>
    rw [hread] at h
    exact h

theorem scanning_points {reader : Scan α} (h : Points g reader) :
    Points g (liftM reader : Parser α) :=
  ⟨fun context hc => scanning_ends (h.ends context.cursor hc)⟩

theorem unexpected_points (production : String) : Points g (unexpected production : Parser α) :=
  ⟨fun _ hc => ⟨hc,.inl (hc.points_unexpected production)⟩⟩

theorem build_points (node : Node) : Points g (build node) :=
  .ite (fun _ => .pure _) fun _ => .broken _

end

end Grammar

open Grammar Cursor

section
variable {g : Region} {c : Cursor} {α β γ : Type} {m : Parser α}

namespace Points

theorem scan {reader : Scan α} {q : α → Parser β} (h : Points g reader) (hq : ∀ a, Points g (q a)) :
    Points g (liftM reader >>= q) := (scanning_points h).bind hq

theorem look {q : Option Char → Parser β} {distance : Nat} (hq : ∀ next, Points g (q next)) :
    Points g (liftM (peek distance) >>= q) := .scan (peek_points distance) hq

theorem lookFor {ofClass : Char → Bool} {distance : Nat} {q : Bool → Parser β}
    (hq : ∀ found, Points g (q found)) : Points g (liftM (peekIs ofClass distance) >>= q) :=
  .scan (peekIs_points ofClass distance) hq

theorem lookAt {literal : String} {q : Bool → Parser β} (hq : ∀ found, Points g (q found)) :
    Points g (liftM (lookingAt literal) >>= q) := .scan (lookingAt_points literal) hq

theorem consume {literal : String} {q : Bool → Parser β} (hq : ∀ found, Points g (q found)) :
    Points g (liftM (Cursor.consume literal) >>= q) := .scan (consume_points literal) hq

theorem expect {literal production : String} {q : Unit → Parser β} (hq : Points g (q ())) :
    Points g (liftM (Cursor.expect literal production) >>= q) :=
  .scan (expect_points literal production) fun _ => hq

theorem code {production : String} {q : Char × Char → Parser β} (hq : ∀ code, Points g (q code)) :
    Points g (liftM (takeCode production) >>= q) := .scan (takeCode_points production) hq

theorem here {q : Cursor → Parser β} (hq : ∀ c, g.Contains c → PointsFrom g c (q c)) :
    Points g (Grammar.here >>= q) := ⟨fun context hc => (hq context.cursor hc).ends context rfl⟩

theorem get {q : Context → Parser β} (hq : ∀ context, Points g (q context)) :
    Points g (MonadState.get >>= q) := ⟨fun context hc => (hq context).ends context hc⟩

theorem remember {node : Node} {q : Unit → Parser β} (hq : Points g (q ())) :
    Points g (Grammar.remember node >>= q) := ⟨fun _ hc => hq.ends _ hc⟩

theorem remembered {component : Parser Node} (h : Points g component) :
    Points g (Grammar.remembered component) := h.bind fun _ => .remember (.pure _)

theorem nested (h : Points g m) : Points g (Grammar.nested m) := by
  refine ⟨fun context hc => ?_⟩
  have hm := h.ends { context with depth := context.depth + 1 } hc
  unfold Grammar.nested
  cases hresult : m { context with depth := context.depth + 1 } <;> rw [hresult] at hm <;> exact hm

theorem allowingTemplateArgs (allowed : Bool) (h : Points g m) :
    Points g (Grammar.allowingTemplateArgs allowed m) := by
  refine ⟨fun context hc => ?_⟩
  have hm := h.ends { context with templateArgsAllowed := allowed } hc
  unfold Grammar.allowingTemplateArgs
  cases hresult : m { context with templateArgsAllowed := allowed } <;>
    rw [hresult] at hm <;> exact hm

theorem trial (h : Points g m) : Points g (Grammar.trial m) := by
  refine ⟨fun context hc => ?_⟩
  have hm := h.ends { context with speculative := true } hc
  unfold Grammar.trial
  cases hresult : m { context with speculative := true } with
  | ok a after =>
    rw [hresult] at hm
    exact hm
  | error fault after =>
    rw [hresult] at hm
    cases fault with
    | error error =>
      dsimp only
      split
      · exact hm.1
      · exact hm
    | broken promise => exact hm

theorem abandon {cursorCheckpoint : Nat} (h : g.start ≤ cursorCheckpoint)
    (substitutionsCheckpoint : Nat) :
    Points g (Grammar.abandon cursorCheckpoint substitutionsCheckpoint) := by
  have restored : Points g (restore cursorCheckpoint) := by
    unfold restore
    refine points_get fun c hc => .ite (fun hle => ?_) fun _ => .of_points (.broken _) hc
    have hback : g.Contains (back (c.position - cursorCheckpoint) c) :=
      hc.back (by omega) (by omega)
    exact ⟨fun _ _ => hback⟩
  unfold Grammar.abandon
  refine .scan restored fun _ => ⟨fun context hc => ?_⟩
  rw [bind_apply,get_apply]
  dsimp only
  unfold Substitutions.restore
  split
  · exact hc
  · exact ⟨hc,trivial⟩

theorem repeatRound {round : γ → Parser (Round γ β)} (h : ∀ a, Points g (round a)) (a : γ) :
    Points g (Grammar.repeatRound round a) := by
  have within : ∀ (bound : List Char) (a : γ), Points g (repeatWithin round bound a) := by
    intro bound
    induction bound with
    | nil =>
      intro a
      unfold repeatWithin
      refine (h a).bind fun result => ?_
      cases result with
      | again a => exact .broken _
      | done b => exact .pure b
    | cons x bound ih =>
      intro a
      unfold repeatWithin
      refine (h a).bind fun result => ?_
      cases result with
      | again a => exact ih a
      | done b => exact .pure b
  exact .here fun cursor hc => .of_points (within _ a) hc

theorem itemsUntil {listEnd : Parser Bool} (hend : Points g listEnd) (h : Points g m) :
    Points g (Grammar.itemsUntil listEnd m) :=
  repeatRound (fun _ => hend.bind fun _ => .ite (fun _ => .pure _) fun _ =>
    h.bind fun _ => .pure _) []

theorem itemsToE (h : Points g m) : Points g (Grammar.itemsToE m) :=
  itemsUntil (scanning_points (consume_points "E")) h

end Points

theorem PointsFrom.here {q : Cursor → Parser β} (h : PointsFrom g c (q c)) :
    PointsFrom g c (Grammar.here >>= q) := by
  refine ⟨fun context hcontext => ?_⟩
  obtain rfl : context.cursor = c := hcontext
  exact h.ends context rfl

theorem PointsFrom.scan {reader : Scan α} {q : α → Parser β} (hc : g.Contains c)
    (h : Points g reader) (hq : ∀ a after, reader c = .ok a after → g.Contains after →
      PointsFrom g after (q a)) :
    PointsFrom g c (liftM reader >>= q) := by
  refine ⟨fun context hcontext => ?_⟩
  obtain rfl : context.cursor = c := hcontext
  have hends := h.ends context.cursor hc
  change g.Ends ((scanning reader >>= q) context)
  rw [bind_apply,scanning]
  cases hread : reader context.cursor with
  | ok a after =>
    rw [hread] at hends
    exact (hq a after hread hends).ends _ rfl
  | error fault after =>
    rw [hread] at hends
    exact hends

end

end MangledNames
