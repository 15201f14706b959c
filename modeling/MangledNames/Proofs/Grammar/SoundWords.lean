import MangledNames.Proofs.Grammar.Reading
import MangledNames.Grammar.Production
set_option autoImplicit false

/-!
The words of the grammar and the productions that need no others read on and give sound nodes.
-/

namespace MangledNames.Grammar

open Cursor

theorem seqId_runs (production : String) : Runs 1 (seqId production) fun _ => True := by
  refine ⟨fun c hc => ?_⟩
  cases h : c.rest.takeWhile isSeqDigit with
  | nil =>
    have he : seqId production c = Cursor.unexpected production c := by simp [seqId,h]
    rw [he]
    exact (Cursor.unexpected_runs production).ends c hc
  | cons x found =>
    have he : seqId production c =
        .ok (numeral 36 (x :: found)) (advance (x :: found).length c) := by
      simp [seqId,h]
    rw [he]
    have hl := advance_takeWhile isSeqDigit c
    rw [h] at hl
    obtain ⟨hl,hp⟩ := hl
    refine ⟨hl,?_,trivial⟩
    change 1 ≤ (advance (x :: found).length c).position - c.position
    rw [hp]
    simp

theorem discriminator_runs : Runs 0 discriminator fun _ => True := by
  unfold discriminator
  have taken : Runs 0 (takeCode "discriminator") fun _ => True := (takeCode_runs _).rest
  refine (lookingAt_runs "_").first fun single _ => ?_
  refine Runs.first (p := fun _ => True) ?_ fun short _ => Runs.ite (fun _ => ?_) fun _ => ?_
  · exact (peekIs_runs isDigit 1).first fun _ _ => Runs.pure trivial
  · exact taken.first fun _ _ => Runs.pure trivial
  · refine (lookingAt_runs "__").first fun double _ => ?_
    refine Runs.first (p := fun _ => True) ?_ fun long _ => Runs.ite (fun _ => ?_) fun _ => ?_
    · exact (peekIs_runs isDigit 2).first fun _ _ => Runs.pure trivial
    · exact taken.first fun _ _ => (digits_runs _).rest.first fun _ _ =>
        expect_runs "_" _ (Nat.zero_le _)
    · exact Runs.pure trivial

/-- Numbers of entities start from one. -/
theorem numberSuffix_runs (production : String) :
    Runs 1 (numberSuffix production) fun number => 1 ≤ number := by
  unfold numberSuffix
  refine RunsTo.bind (consume_runsTo "_") fun d found hd => RunsTo.ite (fun h => ?_) fun _ => ?_
  · have hlit := hd h
    exact RunsTo.pure ⟨by simpa using hlit,Nat.le_refl 1⟩
  · refine RunsTo.bind (unsigned_runs production) fun e number he => ?_
    refine RunsTo.bind (expect_runs (n := 0) "_" production (Nat.zero_le _)) fun _ _ _ => ?_
    exact RunsTo.pure ⟨by omega,by omega⟩

theorem identifier_runs : Runs 1 identifier fun name => name.isEmpty = false := by
  unfold identifier
  refine Cursor.get_runs.andThen fun start _ => (unsigned_runs _).first fun length _ => ?_
  refine Runs.ite (fun _ => (Cursor.fail_runs rfl).failing) fun hlength => ?_
  refine (takeChars_runs length _).rest.first fun found hfound => Runs.pure ?_
  cases found with
  | nil => exact absurd hfound.symm hlength
  | cons x found => simp

theorem cvQualifiers_runs : Runs 0 cvQualifiers fun _ => True := by
  unfold cvQualifiers
  exact (consume_runs "r").first fun _ _ => (consume_runs "V").first fun _ _ =>
    (consume_runs "K").first fun _ _ => Runs.pure trivial

theorem refQualifier_runs : Runs 0 refQualifier fun _ => True := by
  unfold refQualifier
  refine (consume_runs "R").first fun _ _ => Runs.ite (fun _ => Runs.pure trivial) fun _ => ?_
  exact (consume_runs "O").first fun _ _ => Runs.ite (fun _ => Runs.pure trivial) fun _ =>
    Runs.pure trivial

theorem properName_runs : Runs 1 properName fun name => name.isEmpty = false := by
  unfold properName
  refine (scanning_runs identifier_runs).first fun name hname => ?_
  have hproper : (if isAnonymousNamespace name.toList then "(anonymous namespace)"
      else name).isEmpty = false := by
    split
    · rfl
    · exact hname
  refine Runs.first (build_runs _ ?_ hproper) fun _ _ => Runs.pure hproper
  simp [Node.wellFormed,hproper]

theorem sourceName_runs : Runs 1 sourceName Node.Sound :=
  properName_runs.map fun _ hname => hname

theorem tableEntry_runs (index offset : Nat) :
    Runs 0 (do
      match (← get).substitutions.resolve index offset with
      | .ok node => return node
      | .error error => fail error : Parser Node) Node.Sound := by
  refine ⟨fun context hc => ?_⟩
  rw [bind_apply,get_apply]
  dsimp only
  cases hnode : context.substitutions.resolve index offset with
  | ok node => exact (Runs.pure (context.resolve_sound hc hnode)).ends context hc
  | error error => exact (fail_runs error).ends context hc

theorem substitution_runs : Runs 1 substitution Node.Sound := by
  unfold substitution
  refine here_runs.andThen fun start _ => (scanning_runs (expect_runs "S" _ (by decide))).first
    fun _ _ => (scanning_runs (peekIs_runs isLower 0)).first fun _ _ =>
      Runs.ite (fun _ => ?_) fun _ => ?_
  · refine (scanning_runs (next_runs _)).rest.first fun letter _ => ?_
    split
    · exact Runs.pure trivial
    · exact fail_runs _
  · refine (scanning_runs (consume_runs "_")).first fun _ _ => ?_
    refine Runs.ite (fun _ => ?_) fun _ => ?_
    · exact (Runs.pure (p := fun _ => True) trivial).first fun index _ =>
        tableEntry_runs index start.position
    · exact (scanning_runs (seqId_runs _)).rest.first fun _ _ =>
        (scanning_runs (expect_runs "_" _ (Nat.zero_le _))).first fun _ _ =>
          (Runs.pure (p := fun _ => True) trivial).first fun index _ =>
            tableEntry_runs index start.position

theorem templateParam_runs : Runs 1 templateParam Node.Sound := by
  unfold templateParam
  refine here_runs.andThen fun start _ => (scanning_runs (expect_runs "T" _ (by decide))).first
    fun _ _ => (scanning_runs (lookingAt_runs "L")).first fun _ _ => Runs.guard (fail_runs _) ?_
  refine (scanning_runs (peekIs_runs _ 0)).first fun _ _ => Runs.guard (fail_runs _) ?_
  refine (scanning_runs (consume_runs "_")).first fun _ _ => Runs.ite
    (fun _ => Runs.pure trivial) fun _ => ?_
  exact (scanning_runs (unsigned_runs _)).rest.first fun _ _ =>
    (scanning_runs (expect_runs "_" _ (Nat.zero_le _))).first fun _ _ => Runs.pure trivial

end MangledNames.Grammar
