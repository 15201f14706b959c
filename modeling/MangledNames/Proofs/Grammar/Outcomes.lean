import MangledNames.Proofs.Grammar.Decoding
import MangledNames.Proofs.Grammar.Reading
set_option autoImplicit false

/-!
What else is known of a reading when the text ahead is given: that whatever it comes to is of some
kind, that the text does not fit, or what it comes to while no trial is going on.
-/

namespace MangledNames.Cursor

variable {rest : List Char}

theorem unexpected_fails {α : Type} {before : Cursor → Prop} (production : String) :
    Fails (unexpected production : Scan α) before :=
  ⟨fun c _ => ⟨_,c,rfl,_,rfl,category_unexpectedAt c production⟩⟩

theorem digits_fails (production : String) (h : rest.head?.any isDigit = false) :
    Fails (digits production) (At rest) := by
  refine ⟨fun c hc => ?_⟩
  have hnone : c.rest.takeWhile isDigit = [] := by
    rw [hc]
    cases rest with
    | nil => rfl
    | cons x rest =>
      have hx : isDigit x = false := h
      simp [hx]
  unfold digits
  rw [bind_apply,get_apply]
  simp only [hnone]
  exact (unexpected_fails production).results c hc

theorem identifier_fails (h : rest.head?.any isDigit = false) :
    Fails Grammar.identifier (At rest) := by
  unfold Grammar.identifier unsigned
  refine ⟨fun c hc => ?_⟩
  exact ((digits_fails "identifier length" h).bind.bind).results c hc

theorem takeCode_fails (production : String) (h : rest.length < 2) :
    Fails (takeCode production) (At rest) := by
  refine ⟨fun c hc => ?_⟩
  obtain ⟨passed,text⟩ := c
  obtain rfl : text = rest := hc
  cases text with
  | nil => exact ⟨_,_,rfl,_,rfl,rfl⟩
  | cons x text =>
    cases text with
    | nil => exact ⟨_,_,rfl,_,rfl,rfl⟩
    | cons y text =>
      simp only [List.length_cons] at h
      omega

end MangledNames.Cursor

namespace MangledNames.Grammar

open Cursor

section
variable {α β γ : Type} {allowed : Bool} {rest more : List Char} {table table' : Substitutions}

theorem At.deeper {context : Context} (h : At allowed rest table context) :
    At allowed rest table { context with depth := context.depth + 1 } :=
  ⟨h.cursor,h.substitutions,h.templateArgsAllowed⟩

theorem OffTrial.deeper {context : Context} (h : OffTrial allowed rest table context) :
    OffTrial allowed rest table { context with depth := context.depth + 1 } :=
  ⟨h.toAt.deeper,h.speculative⟩

theorem nested_yields {body : Parser α} {before before' : Context → Prop} {p : α → Prop}
    (h : Yields body before' p)
    (hdeeper : ∀ context, before context → before' { context with depth := context.depth + 1 }) :
    Yields (nested body) before p := by
  refine ⟨fun context a after hc hrun => ?_⟩
  unfold nested at hrun
  split at hrun
  · rename_i hbody
    cases hrun
    exact h.results { context with depth := context.depth + 1 } _ _ (hdeeper context hc) hbody
  · cases hrun

theorem repeatRound_yields {before : Context → Prop} {round : γ → Parser (Round γ β)} {i : γ → Prop}
    {p : β → Prop} {a : γ} (hfirst : Yields (round a) before (Round.Keeps i p))
    (h : ∀ a, i a → Yields (round a) (fun _ => True) (Round.Keeps i p)) :
    Yields (repeatRound round a) before p := by
  have within : ∀ bound : List Char, Yields (repeatWithin round bound a) before p := by
    intro bound
    induction bound generalizing a before with
    | nil =>
      unfold repeatWithin
      refine hfirst.bind fun next hnext => ?_
      cases next with
      | done b => exact .pure hnext
      | again a => exact .throw
    | cons c bound ih =>
      unfold repeatWithin
      refine hfirst.bind fun next hnext => ?_
      cases next with
      | done b => exact .pure hnext
      | again a => exact ih (h a hnext)
  exact ⟨fun context => (within context.cursor.rest).results context⟩

/-- Where the list does not end at once, it is not empty. -/
theorem itemsUntil_yields {listEnd : Parser Bool} {item : Parser α}
    (hend : Reads allowed listEnd rest table false more table') :
    Yields (itemsUntil listEnd item) (At allowed rest table) (· ≠ []) := by
  refine repeatRound_yields (i := (· ≠ [])) ?_ fun items hitems => ?_
  · exact hend.yields (.bind .any fun a _ => .pure (List.cons_ne_nil a []))
  · refine Yields.bind .any fun ended _ => .ite (fun _ => .pure ?_) fun _ => ?_
    · simpa [Round.Keeps] using hitems
    · exact .bind .any fun a _ => .pure (List.cons_ne_nil a items)

/-! Texts that do not fit. -/

theorem scanning_fails {scan : Scan α} (h : Fails scan (Cursor.At rest)) :
    Fails (liftM scan : Parser α) (At allowed rest table) := by
  refine ⟨fun context hc => ?_⟩
  obtain ⟨fault,cursor,hscan,hfault⟩ := h.results context.cursor hc.cursor
  refine ⟨fault,{ context with cursor := cursor },?_,hfault⟩
  change scanning scan context = _
  unfold scanning
  rw [hscan]

theorem fail_fails {before : Context → Prop} {e : DemangleError} (he : e.category = .malformed) :
    Fails (fail e : Parser α) before := ⟨fun context _ => ⟨_,context,rfl,e,rfl,he⟩⟩

theorem unexpected_fails {before : Context → Prop} (production : String) :
    Fails (unexpected production : Parser α) before :=
  ⟨fun context _ => ⟨_,context,rfl,_,rfl,Cursor.category_unexpectedAt context.cursor production⟩⟩

theorem here_then_fails {q : Cursor → Parser β}
    (h : ∀ c, c.rest = rest → Fails (q c) (At allowed rest table)) :
    Fails (here >>= q) (At allowed rest table) :=
  ⟨fun context hc => (h context.cursor hc.cursor).results context hc⟩

/-! Readings while no trial is going on. -/

theorem scanned_offTrial {scan : Scan α} {a : α} {rest' : List Char}
    (h : Gives scan (Cursor.At rest) a (Cursor.At rest')) :
    Gives (liftM scan : Parser α) (OffTrial allowed rest table) a
      (OffTrial allowed rest' table) := by
  refine ⟨fun context hc => ?_⟩
  obtain ⟨cursor,hscan,hcursor⟩ := h.results context.cursor hc.cursor
  refine ⟨{ context with cursor := cursor },?_,⟨hcursor,hc.substitutions,hc.templateArgsAllowed⟩,
    hc.speculative⟩
  change scanning scan context = _
  unfold scanning
  rw [hscan]

theorem here_then_offTrial {q : Cursor → Parser β} {after : Context → Prop} {b : β}
    (h : ∀ c, c.rest = rest → Gives (q c) (OffTrial allowed rest table) b after) :
    Gives (here >>= q) (OffTrial allowed rest table) b after :=
  ⟨fun context hc => (h context.cursor hc.cursor).results context hc⟩

theorem nested_offTrial {body : Parser α} {a : α} {rest' : List Char}
    (h : Gives body (OffTrial allowed rest table) a (At allowed rest' table')) :
    Gives (nested body) (OffTrial allowed rest table) a (At allowed rest' table') := by
  refine ⟨fun context hc => ?_⟩
  obtain ⟨after,hm,hafter⟩ := h.results { context with depth := context.depth + 1 } hc.deeper
  refine ⟨{ after with depth := context.depth },?_,hafter.cursor,hafter.substitutions,
    hafter.templateArgsAllowed⟩
  unfold nested
  rw [hm]

end

end MangledNames.Grammar
