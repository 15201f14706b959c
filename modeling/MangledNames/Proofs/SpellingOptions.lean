import Mathlib
import MangledNames.Proofs.Printing.Respelling
set_option autoImplicit false

/-!
The options that only change the spelling: whether closing angle brackets stand apart, and the
case of the letters in literals.
-/

namespace MangledNames

open Printing

/-- The first text is the second one, with single spaces between some `>` that are adjacent
there. -/
inductive Spaced : List Char → List Char → Prop
  | nil : Spaced [] []
  | same {a b : List Char} (c : Char) : Spaced a b → Spaced (a ++ [c]) (b ++ [c])
  | apart {a b : List Char} : Spaced (a ++ ['>']) (b ++ ['>']) →
    Spaced (a ++ ['>'] ++ [' ','>']) (b ++ ['>'] ++ ['>'])

def SameLetters (a b : List Char) : Prop := a.map Char.toUpper = b.map Char.toUpper

namespace Spaced

theorem append {a b : List Char} (text : List Char) (h : Spaced a b) :
    Spaced (a ++ text) (b ++ text) := by
  induction text generalizing a b with
  | nil => simpa using h
  | cons c text ih =>
    rw [List.append_cons a,List.append_cons b]
    exact ih (.same c h)

theorem length_le {a b : List Char} (h : Spaced a b) : b.length ≤ a.length := by
  induction h with
  | nil => exact Nat.le_refl _
  | same c _ ih => simpa using ih
  | apart _ ih =>
    simp only [List.length_append,List.length_cons,List.length_nil] at ih ⊢
    omega

theorem getLast?_eq {a b : List Char} (h : Spaced a b) : a.getLast? = b.getLast? := by
  induction h with
  | nil => rfl
  | same c _ _ => simp
  | apart _ _ => simp

theorem apart_of_last {a b : List Char} (h : Spaced a b) (hlast : a.getLast? = some '>') :
    Spaced (a ++ [' ','>']) (b ++ ['>']) := by
  obtain ⟨a',rfl⟩ := List.getLast?_eq_some_iff.mp hlast
  obtain ⟨b',rfl⟩ := List.getLast?_eq_some_iff.mp (h.getLast?_eq ▸ hlast)
  exact .apart h

end Spaced

namespace SameLetters

theorem getLast?_iff {a b : List Char} {mark : Char} (hmark : mark.isAlpha = false)
    (h : SameLetters a b) :
    a.getLast? = some mark ↔ b.getLast? = some mark := by
  have upper_iff : ∀ c : Char, c.toUpper = mark ↔ c = mark := by
    intro c
    have kept : c.isAlpha = false → c.toUpper = c := fun hc =>
      Char.toUpper_eq_of_not_isLower (by simp_all [Char.isAlpha])
    constructor
    · rintro rfl
      rw [Char.isAlpha_toUpper_eq_isAlpha] at hmark
      exact (kept hmark).symm
    · rintro rfl
      exact kept hmark
  have last_iff : ∀ text : List Char, text.getLast? = some mark ↔
      (text.map Char.toUpper).getLast? = some mark := by
    intro text
    rw [List.getLast?_map]
    cases text.getLast? with
    | none => simp
    | some c => simp [upper_iff]
  rw [last_iff a,last_iff b,h]

theorem length_eq {a b : List Char} (h : SameLetters a b) : a.length = b.length := by
  simpa using congrArg List.length h

end SameLetters

def spacing : Respelling where
  Holds := Spaced
  blank := .nil
  append := Spaced.append
  length_le := Spaced.length_le
  bracket h := by rw [h.getLast?_eq]
  angle h := by rw [h.getLast?_eq]

def lettering : Respelling where
  Holds := SameLetters
  blank := rfl
  append text h := by
    unfold SameLetters
    rw [List.map_append,List.map_append,h]
  length_le h := h.length_eq.ge
  bracket := SameLetters.getLast?_iff (by decide)
  angle := SameLetters.getLast?_iff (by decide)

def Config.spacing (config : Config) (apart : Bool) : Config :=
  { config with closingAngleSpace := apart }

def Config.lettering (config : Config) (letters : LiteralCase) : Config :=
  { config with literalCase := letters }

theorem expandedText_spaced (name : StandardName) {a b : List Char} (h : Spaced a b) :
    Spaced (a ++ (name.expandedText true).toList) (b ++ (name.expandedText false).toList) := by
  have halves : name.expandedText true = name.expandedText false ∨
      ∃ before : String, before.toList.getLast? = some '>' ∧
        name.expandedText true = before ++ " >" ∧ name.expandedText false = before ++ ">" := by
    cases name with
    | allocator => exact .inl rfl
    | basicString => exact .inl rfl
    | string =>
      exact .inr ⟨"std::basic_string<char, std::char_traits<char>, std::allocator<char>",by decide,
        by decide,by decide⟩
    | istream =>
      exact .inr ⟨"std::basic_istream<char, std::char_traits<char>",by decide,by decide,by decide⟩
    | ostream =>
      exact .inr ⟨"std::basic_ostream<char, std::char_traits<char>",by decide,by decide,by decide⟩
    | iostream =>
      exact .inr ⟨"std::basic_iostream<char, std::char_traits<char>",by decide,by decide,by decide⟩
  obtain hsame | ⟨before,hlast,htext,htext'⟩ := halves
  · rw [hsame]
    exact h.append _
  · rw [htext,htext',String.toList_append,String.toList_append,← List.append_assoc,
      ← List.append_assoc]
    refine (h.append before.toList).apart_of_last ?_
    rw [List.getLast?_append,hlast]
    rfl

theorem closeAngle_spaced (config : Config) (limit : Nat) :
    (respelling spacing limit).Alike (closeAngle (config.spacing true))
    (closeAngle (config.spacing false)) := by
  refine ⟨fun s s' hs => ?_⟩
  change Echoes spacing limit s s' Eq
    ((if s.output.last == some '>' then write " " >>= fun _ => write ">" else write ">") s)
    (write ">" s')
  by_cases hlast : s.output.last = some '>'
  · rw [if_pos (beq_iff_eq.mpr hlast)]
    refine write_echoes hs ((puts_write " ").bind (puts_write ">")) (by decide) ?_
    rw [String.toList_append,String.toList_append,String.toList_append]
    exact hs.text.apart_of_last (hs.sound.last_text ▸ hlast)
  · rw [if_neg fun hangle => hlast (beq_iff_eq.mp hangle)]
    exact (write_same ">").results s s' hs

theorem spacing_relates (config : Config) :
    spacing.Relates (config.spacing true) (config.spacing false) where
  omitParameterList := rfl
  omitReturnType := rfl
  recursionLimit := rfl
  outputSizeLimit := rfl
  suffixed _ _ _ h := h.append _
  expanded name _ _ h := expandedText_spaced name h
  closing := closeAngle_spaced config _

theorem cased_sameLetters (config : Config) (letters letters' : LiteralCase) (suffix : String)
    {a b : List Char} (h : SameLetters a b) :
    SameLetters (a ++ (cased (config.lettering letters) suffix).toList)
      (b ++ (cased (config.lettering letters') suffix).toList) := by
  have hcased : ∀ letters, (cased (config.lettering letters) suffix).toList.map Char.toUpper =
      suffix.toList.map Char.toUpper := by
    rintro (_ | _)
    · rfl
    · change (suffix.map Char.toUpper).toList.map Char.toUpper = _
      simp [String.toList_map]
  unfold SameLetters
  rw [List.map_append,List.map_append,hcased,hcased,h]

theorem lettering_relates (config : Config) (letters letters' : LiteralCase) :
    lettering.Relates (config.lettering letters) (config.lettering letters') where
  omitParameterList := rfl
  omitReturnType := rfl
  recursionLimit := rfl
  outputSizeLimit := rfl
  suffixed suffix _ _ h := cased_sameLetters config letters letters' suffix h
  expanded _ _ _ h := lettering.append _ h
  closing := closeAngle_respelled rfl

/-- One outcome, with texts that differ only in the case of letters. -/
inductive SameButLetters : Except Fault String → Except Fault String → Prop
  | text {text text' : String} : text.length = text'.length → SameLetters text.toList text'.toList →
    SameButLetters (.ok text) (.ok text')
  | fault (fault : Fault) : SameButLetters (.error fault) (.error fault)

theorem Node.render_spacing (node : Node) (config : Config) (apart : Bool) {fault : Fault}
    (h : node.render (config.spacing apart) = .error fault)
    (hfault : fault ≠ tooLarge config.outputSizeLimit) :
    node.render (config.spacing !apart) = .error fault ∨
      node.render (config.spacing !apart) = .error (tooLarge config.outputSizeLimit) := by
  obtain ⟨htext,hends⟩ := render_respelled (spacing_relates config) node
  cases apart with
  | true => exact .inl ((hends fault h).resolve_left hfault)
  | false =>
    change node.render (config.spacing true) = _ ∨ node.render (config.spacing true) = _
    cases hrun : node.render (config.spacing true) with
    | ok text =>
      obtain ⟨text',hrun',_⟩ := htext text hrun
      rw [hrun'] at h
      cases h
    | error fault' =>
      obtain rfl | hrun' := hends fault' hrun
      · exact .inr rfl
      · exact .inl (hrun'.symm.trans h)

theorem Node.render_lettering (node : Node) (config : Config) (letters letters' : LiteralCase) :
    SameButLetters (node.render (config.lettering letters))
    (node.render (config.lettering letters')) := by
  obtain ⟨htext,hends⟩ := render_respelled (lettering_relates config letters letters') node
  obtain ⟨htext',hends'⟩ := render_respelled (lettering_relates config letters' letters) node
  cases hrun : node.render (config.lettering letters) with
  | ok text =>
    obtain ⟨text',hrun',hletters⟩ := htext text hrun
    have hlength : text.toList.length = text'.toList.length := hletters.length_eq
    rw [String.length_toList,String.length_toList] at hlength
    rw [hrun']
    exact .text hlength hletters
  | error fault =>
    have hother : node.render (config.lettering letters') = .error fault := by
      cases hrun' : node.render (config.lettering letters') with
      | ok text' =>
        obtain ⟨text,hrun'',_⟩ := htext' text' hrun'
        rw [hrun] at hrun''
        cases hrun''
      | error fault' =>
        -- Two runs out of room are out of the same room.
        obtain rfl | hsame := hends fault hrun
        · obtain rfl | hsame' := hends' fault' hrun'
          · rfl
          · exact hsame'.symm.trans hrun
        · exact hrun'.symm.trans hsame
    rw [hother]
    exact .fault fault

/-- Setting closing brackets apart puts single spaces between adjacent `>` and changes nothing else,
and a tree that cannot be printed one way cannot be printed the other way, for the same reason
unless there is no room. The case of literals changes letters in place. -/
theorem spelling_options_only_respell (node : Node) (config : Config) :
    (∀ text, node.render (config.spacing true) = .ok text →
      ∃ text', node.render (config.spacing false) = .ok text' ∧ Spaced text.toList text'.toList) ∧
    (∀ apart fault, node.render (config.spacing apart) = .error fault →
      fault ≠ tooLarge config.outputSizeLimit →
        node.render (config.spacing !apart) = .error fault ∨
          node.render (config.spacing !apart) = .error (tooLarge config.outputSizeLimit)) ∧
    SameButLetters (node.render (config.lettering .upper))
      (node.render (config.lettering .lower)) :=
  ⟨(render_respelled (spacing_relates config) node).1,
    fun apart _ h hfault => node.render_spacing config apart h hfault,
    node.render_lettering config .upper .lower⟩

/-- Apart, the brackets of `a<b<int>>` close in `> >`; a parameter of nothing
is unknown in any spelling. -/
theorem spelling_options_only_respell_brackets :
    (∃ text', (Node.templateName (.sourceName "a") [.templateName (.sourceName "b")
        [.builtinType .int]]).render (Config.standard.spacing false) = .ok text' ∧
      Spaced "a<b<int> >".toList text'.toList) ∧
    ((Node.templateParam 0).render (Config.standard.spacing true) =
        .error (.error (.badTemplateParamReference 0)) ∨
      (Node.templateParam 0).render (Config.standard.spacing true) =
        .error (tooLarge Config.standard.outputSizeLimit)) :=
  ⟨(spelling_options_only_respell _ _).1 _ (by decide +kernel),
    (spelling_options_only_respell _ _).2.1 false _ (by decide +kernel) nofun⟩

end MangledNames
