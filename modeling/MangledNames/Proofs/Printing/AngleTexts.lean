import MangledNames.Proofs.Printing.Composing
set_option autoImplicit false

/-!
Texts in which no angle bracket is closed right behind another one.
-/

namespace MangledNames.Printing

/-- What a shift follows: the word that its name starts with, or its first operand. -/
def MayShift (before : List Char) : Prop := "operator".toList <:+ before ∨ [')',' '] <:+ before

/-- A text that does not start with `>`, where only shifts have two of them in a row. -/
structure AnglesApart (text : List Char) : Prop where
  start : text.head? ≠ some '>'
  shift : ∀ before after, text = before ++ '>' :: '>' :: after → MayShift before

theorem MayShift.append {before : List Char} (h : MayShift before) (more : List Char) :
    MayShift (more ++ before) :=
  h.imp (·.trans (List.suffix_append more before)) (·.trans (List.suffix_append more before))

namespace AnglesApart

variable {u v text : List Char}

theorem of_no_angle (h : '>' ∉ text) : AnglesApart text where
  start hstart := h (List.mem_of_mem_head? hstart)
  shift before after htext := absurd (htext ▸ by simp) h

theorem nil : AnglesApart [] := .of_no_angle nofun

/-- Where two texts meet there is at most one `>`. -/
theorem join (hu : AnglesApart u) (hne : u ≠ [])
    (hmeet : u.getLast? = some '>' → v.head? ≠ some '>')
    (hv : ∀ before after, v = before ++ '>' :: '>' :: after → MayShift (u ++ before)) :
    AnglesApart (u ++ v) where
  start := by
    rw [List.head?_append_of_ne_nil _ hne]
    exact hu.start
  shift before after htext := by
    rcases List.append_eq_append_iff.mp htext with ⟨rest,rfl,hrest⟩ | ⟨rest,hbefore,hrest⟩
    · exact hv rest after hrest
    · rcases rest with _ | ⟨c,_ | ⟨d,rest⟩⟩
      · rw [List.append_nil] at hbefore
        rw [← hbefore,← List.append_nil u]
        exact hv [] after hrest.symm
      · cases hrest
        exact absurd rfl (hmeet (by rw [hbefore,List.getLast?_concat]))
      · cases hrest
        exact hu.shift before rest hbefore

theorem append (hu : AnglesApart u) (hv : AnglesApart v) : AnglesApart (u ++ v) := by
  by_cases hne : u = []
  · rwa [hne,List.nil_append]
  · exact hu.join hne (fun _ => hv.start) fun before after htext =>
      (hv.shift before after htext).append u

/-- A bracket may be closed behind anything but `>`. -/
theorem close (h : AnglesApart text) (hne : text ≠ []) (hlast : text.getLast? ≠ some '>') :
    AnglesApart (text ++ ['>']) :=
  h.join hne (absurd · hlast) fun before after htext => by
    have hlength := congrArg List.length htext
    simp only [List.length_append,List.length_cons,List.length_nil] at hlength
    omega

end AnglesApart

/-- Two `>` in a row are how the symbols of shifts start. -/
theorem symbol_shifts (operator : Operator) {before after : List Char}
    (h : operator.symbol.toList = before ++ '>' :: '>' :: after) : before = [] := by
  have checked : ∀ {text : String} {chars : List Char}, text = String.ofList chars →
      ¬['>','>'] <:+: chars.tail → ¬['>','>'] <:+: text.toList.tail := by
    rintro _ chars rfl hlater
    rwa [String.toList_ofList]
  have hlater : ¬['>','>'] <:+: operator.symbol.toList.tail := by
    cases operator <;> exact checked rfl (by decide)
  cases before with
  | nil => rfl
  | cons c before => exact absurd ⟨before,after,by simp [h]⟩ hlater

theorem AnglesApart.symbol {text : List Char} (h : AnglesApart text) (hshift : MayShift text)
    (operator : Operator) : AnglesApart (text ++ operator.symbol.toList) := by
  have hends : ∃ before c, text = before ++ [c] ∧ c ≠ '>' := by
    rcases hshift with ⟨first,rfl⟩ | ⟨first,rfl⟩
    · exact ⟨first ++ "operato".toList,'r',by simp,by decide⟩
    · exact ⟨first ++ [')'],' ',by simp,by decide⟩
  obtain ⟨first,c,htext,hc⟩ := hends
  have hlast : text.getLast? = some c := by rw [htext,List.getLast?_concat]
  refine h.join (by simp [htext]) (fun hangle => ?_) fun before after hsymbol => ?_
  · exact absurd (Option.some.inj (hlast.symm.trans hangle)) hc
  · rw [symbol_shifts operator hsymbol,List.append_nil]
    exact hshift

theorem Unmarked.angles {text : List Char} (h : Unmarked text) : AnglesApart text :=
  .of_no_angle fun hangle => absurd (h '>' hangle) (by decide)

theorem AnglesApart.text_append {u v : String} (hu : AnglesApart u.toList)
    (hv : AnglesApart v.toList) :
    AnglesApart (u ++ v).toList := by
  rw [String.toList_append]
  exact hu.append hv

theorem framed_angles {before text after : String} (h : AnglesApart text.toList)
    (hbefore : '>' ∉ before.toList) (hafter : '>' ∉ after.toList) :
    AnglesApart (before ++ text ++ after).toList :=
  ((AnglesApart.of_no_angle hbefore).text_append h).text_append (.of_no_angle hafter)

theorem closed_angles (texts : List String) (h : ∀ text ∈ texts, '>' ∉ text.toList ∧ text ≠ "") :
    AnglesApart (String.join (texts.map (· ++ ">"))).toList := by
  induction texts with
  | nil => exact .nil
  | cons text texts ih =>
    rw [List.forall_mem_cons] at h
    obtain ⟨⟨hplain,hne⟩,htexts⟩ := h
    have hclosed : AnglesApart (text.toList ++ ['>']) :=
      (AnglesApart.of_no_angle hplain).close (by simpa using hne) fun hlast =>
        hplain (List.mem_of_mem_getLast? hlast)
    rw [List.map_cons,String.join_cons,String.toList_append,String.toList_append]
    exact hclosed.append (ih htexts)

theorem expandedText_angles (name : StandardName) :
    AnglesApart (name.expandedText true).toList := by
  cases name with
  | allocator => exact .of_no_angle (by decide)
  | basicString => exact .of_no_angle (by decide)
  | string =>
    exact closed_angles
      ["std::basic_string<char, std::char_traits<char",", std::allocator<char"," "] (by decide)
  | istream =>
    exact closed_angles ["std::basic_istream<char, std::char_traits<char"," "] (by decide)
  | ostream =>
    exact closed_angles ["std::basic_ostream<char, std::char_traits<char"," "] (by decide)
  | iostream =>
    exact closed_angles ["std::basic_iostream<char, std::char_traits<char"," "] (by decide)

/-- Operators that are words or have one operand need no angle. -/
theorem symbol_plain {operator : Operator}
    (h : operator.isWord = true ∨ operator.kind = .prefixOp ∨ operator.kind = .postfixOp) :
    '>' ∉ operator.symbol.toList := by
  have checked : ∀ {text : String} {chars : List Char}, text = String.ofList chars → '>' ∉ chars →
      '>' ∉ text.toList := by
    rintro _ chars rfl hplain
    rwa [String.toList_ofList]
  revert h
  cases operator <;> first
    | exact fun _ => checked rfl (by decide)
    | exact fun h => absurd h (by decide)

theorem operatorName_angles (operator : Operator) :
    AnglesApart (if operator.isWord then "operator " ++ operator.symbol
      else "operator" ++ operator.symbol).toList := by
  cases hword : operator.isWord with
  | true =>
    exact (AnglesApart.of_no_angle (by decide)).text_append
      (.of_no_angle (symbol_plain (.inl hword)))
  | false =>
    rw [if_neg (by simp),String.toList_append]
    exact (AnglesApart.of_no_angle (by decide)).symbol (.inl (List.suffix_refl _)) operator

theorem AnglesApart.closeSpaced {text : String} (h : AnglesApart text.toList) (hne : text ≠ "") :
    AnglesApart (text ++ angleGap text ++ ">").toList := by
  have hgap : '>' ∉ (angleGap text).toList := by
    unfold angleGap
    split <;> decide
  have hbefore : AnglesApart (text ++ angleGap text).toList := by
    rw [String.toList_append]
    exact h.append (.of_no_angle hgap)
  rw [String.toList_append]
  exact hbefore.close (by simp [hne]) (angleGap_last text)

/-- A bracket that only this text opens is closed behind one that does not end with `>`. -/
theorem angled_angles {before text : String} (hbefore : opensAngle before.toList = true)
    (h : AnglesApart text.toList) (hlast : text.toList.getLast? ≠ some '>') :
    AnglesApart (before ++ text ++ ">").toList := by
  have hfree : ∀ c ∈ before.toList, c ∉ ['>'] :=
    free_of_marks (beq_iff_eq.mp hbefore) (by decide) (by decide)
  have hplain : '>' ∉ before.toList := fun hmem => hfree '>' hmem (.head _)
  have hne : before.toList ≠ [] := by
    intro hnone
    rw [hnone] at hbefore
    cases hbefore
  have hopened : AnglesApart (before ++ text).toList :=
    (AnglesApart.of_no_angle hplain).text_append h
  rw [String.toList_append]
  refine hopened.close (by simpa using fun hnone => absurd hnone (by simpa using hne)) ?_
  rw [String.toList_append]
  by_cases hempty : text.toList = []
  · rw [hempty,List.append_nil]
    exact fun hangle => hplain (List.mem_of_mem_getLast? hangle)
  · rwa [List.getLast?_append_of_ne_nil _ hempty]

/-- An operator between operands in parentheses may shift. -/
theorem operationText_angles (operator : Operator) {left right : String}
    (hleft : AnglesApart left.toList) (hright : AnglesApart right.toList) :
    AnglesApart (operationText operator left right).toList := by
  have hbefore : AnglesApart ("(" ++ left ++ ") ").toList :=
    framed_angles hleft (by decide) (by decide)
  have hshift : MayShift ("(" ++ left ++ ") ").toList := by
    rw [String.toList_append]
    exact .inr (List.suffix_append _ _)
  have hsymbol : AnglesApart ("(" ++ left ++ ") " ++ operator.symbol).toList := by
    rw [String.toList_append]
    exact hbefore.symbol hshift operator
  have hafter : AnglesApart ("(" ++ right ++ ")").toList :=
    framed_angles hright (by decide) (by decide)
  have hspaced :=
    (hsymbol.text_append (.of_no_angle (show '>' ∉ " ".toList by decide))).text_append hafter
  have hparts : operationText operator left right =
      "(" ++ left ++ ") " ++ operator.symbol ++ " " ++ ("(" ++ right ++ ")") := by
    have hbracket : (") " : String) = ")" ++ " " := rfl
    simp only [operationText,hbracket,String.append_assoc]
  rw [hparts]
  exact hspaced

theorem frame_plain {before after : List Char} (hframe : encloses before after = true) :
    '>' ∉ before ∧ '>' ∉ after := by
  obtain ⟨opening,closing,hcloses,hbefore,hafter⟩ := encloses_marks hframe
  have plain : ∀ {text : List Char} {mark : Char}, text.filter isMark = [mark] →
      mark ∉ ['>'] → '>' ∉ text :=
    fun h hmark hmem => free_of_marks h (by decide) hmark '>' hmem (.head _)
  rcases closing?_cases hcloses with ⟨rfl,rfl⟩ | ⟨rfl,rfl⟩ | ⟨rfl,rfl⟩ <;>
    exact ⟨plain hbefore (by decide),plain hafter (by decide)⟩

theorem access_angles (access : MemberAccess) : AnglesApart access.text.toList := by
  cases access with
  | dot => exact .of_no_angle (by decide)
  | dotStar => exact .of_no_angle (by decide)
  | arrow => exact closed_angles ["-"] (by decide)

/-- Texts with their angles apart, where lists of arguments are closed behind a gap. -/
def anglesApart {spaced : Bool} (hspaced : spaced = true) : TextInvariant spaced where
  Fits text := AnglesApart text.toList
  append := AnglesApart.text_append
  unmarked := Unmarked.angles
  framed hframe h := framed_angles h (frame_plain hframe).1 (frame_plain hframe).2
  join hu hv _ _ := hu.text_append ((AnglesApart.of_no_angle (by decide)).text_append hv)
  arguments {text} h := by
    have hopened : AnglesApart ("<" ++ text).toList :=
      (AnglesApart.of_no_angle (by decide)).text_append h
    rw [argumentsGap,if_pos hspaced]
    exact hopened.closeSpaced (by simp)
  Closable text := AnglesApart text.toList ∧ text.toList.getLast? ≠ some '>'
  angled hbefore h := angled_angles hbefore h.1 h.2
  operatorName := operatorName_angles
  symbol h := .of_no_angle (symbol_plain (.inr h))
  access := access_angles
  operation := operationText_angles
  expandedText name := by
    rw [hspaced]
    exact expandedText_angles name

end MangledNames.Printing
