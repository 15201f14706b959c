import Mathlib.Data.List.Chain
import MangledNames.Node
import MangledNames.Proofs.Printing.DeclaratorTokens
set_option autoImplicit false

/-!
Types that are made of words by declarators, and their tokens.
-/

namespace MangledNames

/-- Builtin types whose names are one word: neither `unsigned int` nor `decltype(auto)`. -/
def BuiltinType.OneWord : BuiltinType → Prop
  | floatN bits => bits.toList.all Char.isDigit = true
  | type => type.name.toList.all Printing.isWordChar = true

/-- An identifier that can be the name of a class. -/
structure IsClassName (name : String) : Prop where
  chars : name.toList.all (fun c => c.isAlphanum || c == '_') = true
  first : ∃ c ∈ name.toList.head?, c.isDigit = false
  notBuiltin : ∀ type : BuiltinType, type.OneWord → name ≠ type.name
  notQualifier : name ∉ ["const","volatile","restrict"]

namespace Printing

def isReference : Node → Bool
  | .referenceType _ _ => true
  | _ => false

/-- Bases, pointers and pointers to members. -/
def isQualifiable : Node → Bool
  | .builtinType _ | .sourceName _ | .pointerType _ | .pointerToMemberType _ _ => true
  | _ => false

/-- Types that declarators make of builtin types and classes: pointers, references to what is no
reference, arrays with a number or no bound, pointers to members, functions that have nothing but
parameters, and bases and pointers with qualifiers. -/
inductive Declared : Node → Prop where
  | builtin {type : BuiltinType} (h : type.OneWord) : Declared (.builtinType type)
  | named {name : String} (h : IsClassName name) : Declared (.sourceName name)
  | pointer {t : Node} (h : Declared t) : Declared (.pointerType t)
  | reference {t : Node} (kind : ReferenceKind) (h : Declared t) (hsingle : isReference t = false) :
      Declared (.referenceType t kind)
  | array {t : Node} (size : Option Nat) (h : Declared t) :
      Declared (.arrayType t (size.map .size))
  | member {className : String} {t : Node} (hname : IsClassName className) (h : Declared t) :
      Declared (.pointerToMemberType (.sourceName className) t)
  | function {t : Node} {parameters : List Node} (h : Declared t)
      (hparameters : ∀ p ∈ parameters, Declared p) :
      Declared (.functionType { returnType := t, parameters })
  | qualified {t : Node} {cv : CvQualifiers} (h : Declared t) (ht : isQualifiable t = true)
      (hcv : cv.isEmpty = false) : Declared (.qualifiedType t cv)

/-- The name that a type starts with. -/
def baseName : Node → List Char
  | .builtinType type => type.name.toList
  | .sourceName name => name.toList
  | .pointerType t | .referenceType t _ | .arrayType t _ | .pointerToMemberType _ t
  | .qualifiedType t _ | .functionType ⟨t,_,_,_,_,_,_⟩ => baseName t
  | _ => []

mutual

/-- The steps from the base of a type to the type. -/
def steps : Node → List Step
  | .pointerType t => steps t ++ [.pointer]
  | .referenceType t kind => steps t ++ [.reference kind]
  | .arrayType t (some (.size n)) => steps t ++ [.array (some n)]
  | .arrayType t _ => steps t ++ [.array none]
  | .pointerToMemberType (.sourceName className) t => steps t ++ [.member className]
  | .functionType ⟨t,parameters,_,_,_,_,_⟩ => steps t ++ [.function (spellings parameters)]
  | .qualifiedType t cv => steps t ++ [.qualified cv]
  | _ => []

def spellings : List Node → List (List Token)
  | [] => []
  | t :: ts => (.word (baseName t) :: declarator (steps t)) :: spellings ts

end

/-- The tokens of a type: its base, and the declarator that is made of its steps. -/
def spelling (t : Node) : List Token := .word (baseName t) :: declarator (steps t)

theorem steps_array (t : Node) (size : Option Nat) :
    steps (.arrayType t (size.map .size)) = steps t ++ [.array size] := by
  cases size <;> rfl

theorem spellings_eq_map (ts : List Node) : spellings ts = ts.map spelling := by
  induction ts with
  | nil => rfl
  | cons t ts ih => rw [spellings,ih,List.map_cons,spelling]

/-- A word that a type can start with. -/
structure IsBase (word : List Char) : Prop where
  chars : word.all isWordChar = true
  nonempty : word ≠ []
  last : word.getLast? ≠ some ':'

theorem isBase_builtin {type : BuiltinType} (h : type.OneWord) : IsBase type.name.toList := by
  cases type with
  | floatN bits =>
    have hdigits : ∀ c ∈ bits.toList, c.isDigit = true := List.all_eq_true.mp h
    have hword : ∀ c : Char, c.isDigit = true → isWordChar c = true ∧ c ≠ ':' := by
      intro c hc
      refine ⟨by simp [isWordChar,Char.isAlphanum,hc],fun hcolon => ?_⟩
      rw [hcolon] at hc
      cases hc
    simp only [BuiltinType.name,String.toList_append]
    refine ⟨?_,by simp,fun hlast => ?_⟩
    · rw [List.all_append,Bool.and_eq_true]
      exact ⟨by decide,List.all_eq_true.mpr fun c hc => (hword c (hdigits c hc)).1⟩
    · cases hbits : bits.toList with
      | nil => simp [hbits] at hlast
      | cons c digits =>
        rw [hbits,List.getLast?_append_of_ne_nil _ (List.cons_ne_nil _ _),← hbits] at hlast
        exact (hword _ (hdigits _ (List.mem_of_getLast? hlast))).2 rfl
  | _ => exact ⟨h,by decide,by decide⟩

end Printing

namespace BuiltinType

def named : List BuiltinType := [void,wchar,bool,char,signedChar,unsignedChar,short,unsignedShort,
  int,unsignedInt,long,unsignedLong,longLong,unsignedLongLong,int128,unsignedInt128,float,double,
  longDouble,float128,ellipsis,decimal64,decimal128,decimal32,half,char32,char16,char8,auto,
  decltypeAuto,nullptr]

theorem floatN_or_named (type : BuiltinType) : (∃ bits, type = floatN bits) ∨ type ∈ named := by
  cases type with
  | floatN bits => exact .inl ⟨bits,rfl⟩
  | _ => exact .inr (by decide)

theorem name_injective {type type' : BuiltinType} (h : type.name = type'.name) : type = type' := by
  have hnamed : ∀ type ∈ named, ∀ type' ∈ named, type.name = type'.name → type = type' := by
    decide +kernel
  have apart : ∀ type ∈ named, ∀ bits, type.name ≠ "_Float" ++ bits := by
    have hfront : ∀ type ∈ named, type.name.toList.take 6 ≠ "_Float".toList := by decide +kernel
    intro type htype bits heq
    refine hfront type htype ?_
    rw [heq,String.toList_append]
    rfl
  rcases type.floatN_or_named with ⟨bits,rfl⟩ | htype
  · rcases type'.floatN_or_named with ⟨bits',rfl⟩ | htype'
    · have htext := congrArg String.toList h
      simp only [name,String.toList_append] at htext
      rw [String.toList_inj.mp (List.append_cancel_left htext)]
    · exact absurd h.symm (apart type' htype' bits)
  · rcases type'.floatN_or_named with ⟨bits',rfl⟩ | htype'
    · exact absurd h (apart type htype bits')
    · exact hnamed type htype type' htype' h

end BuiltinType

namespace Printing

theorem isBase_className {name : String} (h : IsClassName name) : IsBase name.toList := by
  have hchars := List.all_eq_true.mp h.chars
  refine ⟨List.all_eq_true.mpr fun c hc => ?_,?_,fun hlast => ?_⟩
  · have hc := hchars c hc
    simp only [Bool.or_eq_true] at hc
    rcases hc with hc | hc <;> simp [isWordChar,hc]
  · obtain ⟨c,hc,_⟩ := h.first
    intro hnil
    rw [hnil] at hc
    cases hc
  · exact absurd (hchars _ (List.mem_of_getLast? hlast)) (by decide)

namespace Declared

theorem base {t : Node} (h : Declared t) : IsBase (baseName t) := by
  induction h with
  | builtin h => exact isBase_builtin h
  | named h => exact isBase_className h
  | pointer _ ih | reference _ _ _ ih | array _ _ ih | member _ _ ih | qualified _ _ _ ih =>
    exact ih
  | function _ _ ih => exact ih

theorem last {t : Node} (h : Declared t) :
    ∀ step ∈ (steps t).getLast?, (step.lead = .reference → isReference t = true) ∧
      (isQualifiable t = true → step.lead = .pointer ∨ step.lead = .member) := by
  intro step hstep
  cases h with
  | builtin | named => cases hstep
  | array size =>
    rw [steps_array,List.getLast?_concat,Option.mem_some_iff] at hstep
    subst hstep
    simp [Step.lead,isQualifiable]
  | _ =>
    simp only [steps,List.getLast?_concat,Option.mem_some_iff] at hstep
    subst hstep
    simp [Step.lead,isReference,isQualifiable]

theorem readable_concat {t : Node} {step : Step} (h : Declared t) (hsteps : Readable (steps t))
    (hstep : step.Proper) (hreference : step.lead = .reference → isReference t = false)
    (hqualified : step.lead = .word → isQualifiable t = true) : Readable (steps t ++ [step]) := by
  refine ⟨fun x hx => ?_,List.isChain_append.mpr ⟨hsteps.follows,.singleton _,?_⟩⟩
  · rcases List.mem_append.mp hx with hx | hx
    · exact hsteps.proper x hx
    · exact List.mem_singleton.mp hx ▸ hstep
  · intro last hlast next hnext
    obtain rfl : step = next := by simpa using hnext
    refine ⟨fun hlead hagain => ?_,fun hlead => (h.last last hlast).2 (hqualified hlead)⟩
    have hsingle := hreference hlead
    rw [(h.last last hlast).1 hagain] at hsingle
    cases hsingle

theorem isItem {t : Node} (h : Declared t) (hsteps : Readable (steps t)) : IsItem (spelling t) := by
  refine ⟨?_,?_⟩
  · rw [spelling,depth_cons]
    exact depth_declarator hsteps.proper
  · simp [spelling,lead?,Token.lead,h.base.last]

theorem readable {t : Node} (h : Declared t) : Readable (steps t) := by
  induction h with
  | builtin | named => exact ⟨nofun,.nil⟩
  | pointer h ih => exact h.readable_concat ih trivial nofun nofun
  | reference kind h hsingle ih => exact h.readable_concat ih trivial (fun _ => hsingle) nofun
  | array size h ih =>
    rw [steps_array]
    exact h.readable_concat ih trivial nofun nofun
  | member hname h ih => exact h.readable_concat ih trivial nofun nofun
  | function h hparameters ih ihparameters =>
    refine h.readable_concat ih ?_ nofun nofun
    intro item hitem
    rw [spellings_eq_map] at hitem
    obtain ⟨p,hp,rfl⟩ := List.mem_map.mp hitem
    exact (hparameters p hp).isItem (ihparameters p hp)
  | qualified h ht hcv ih => exact h.readable_concat ih hcv nofun fun _ => ht

/-- Types with the same tokens have the same steps. -/
theorem steps_eq {t u : Node} (h : Declared t) (hu : Declared u) (heq : spelling t = spelling u) :
    baseName t = baseName u ∧ steps t = steps u := by
  obtain ⟨hbase,hdeclarator⟩ := List.cons.inj heq
  exact ⟨Token.word.inj hbase,declarator_injective h.readable hu.readable hdeclarator⟩

theorem same_parameters {ts us : List Node} (h : ∀ t ∈ ts, Declared t) (hu : ∀ u ∈ us, Declared u)
    (hsame : ∀ t ∈ ts, ∀ {u : Node}, Declared u → baseName t = baseName u →
      steps t = steps u → t = u)
    (heq : ts.map spelling = us.map spelling) : ts = us := by
  induction ts generalizing us with
  | nil => exact (List.map_eq_nil_iff.mp heq.symm).symm
  | cons t ts ih =>
    cases us with
    | nil => cases heq
    | cons u us =>
      rw [List.forall_mem_cons] at h hu hsame
      obtain ⟨hfirst,hrest⟩ := List.cons.inj heq
      obtain ⟨hbase,hsteps⟩ := h.1.steps_eq hu.1 hfirst
      rw [hsame.1 hu.1 hbase hsteps,ih h.2 hu.2 hsame.2 hrest]

/-- The base and the steps are all that there is to a type. -/
theorem eq_of_steps {t u : Node} (h : Declared t) (hu : Declared u)
    (hbase : baseName t = baseName u) (hsteps : steps t = steps u) : t = u := by
  -- The last step tells the outermost constructor; those before it are the steps
  -- of the type inside.
  induction h generalizing u with
  | builtin h =>
    cases hu with
    | builtin hu =>
      exact congrArg Node.builtinType (BuiltinType.name_injective (String.toList_inj.mp hbase))
    | named hu => exact absurd (String.toList_inj.mp hbase).symm (hu.notBuiltin _ h)
    | _ => simp [steps,steps_array] at hsteps
  | named h =>
    cases hu with
    | builtin hu => exact absurd (String.toList_inj.mp hbase) (h.notBuiltin _ hu)
    | named hu => exact congrArg Node.sourceName (String.toList_inj.mp hbase)
    | _ => simp [steps,steps_array] at hsteps
  | pointer h ih =>
    cases hu with
    | pointer hu =>
      obtain ⟨hinner,_⟩ := List.append_inj' hsteps rfl
      rw [ih hu hbase hinner]
    | _ => simp [steps,steps_array] at hsteps
  | reference kind h hsingle ih =>
    cases hu with
    | reference kind' hu =>
      obtain ⟨hinner,⟨⟩⟩ := List.append_inj' hsteps rfl
      rw [ih hu hbase hinner]
    | _ => simp [steps,steps_array] at hsteps
  | array size h ih =>
    rw [steps_array] at hsteps
    cases hu with
    | array size' hu =>
      rw [steps_array] at hsteps
      obtain ⟨hinner,⟨⟩⟩ := List.append_inj' hsteps rfl
      rw [ih hu hbase hinner]
    | _ => simp [steps] at hsteps
  | member hname h ih =>
    cases hu with
    | member hname' hu =>
      obtain ⟨hinner,⟨⟩⟩ := List.append_inj' hsteps rfl
      rw [ih hu hbase hinner]
    | _ => simp [steps,steps_array] at hsteps
  | @function t parameters h hparameters ih ihparameters =>
    cases hu with
    | @function u parameters' hu hparameters' =>
      obtain ⟨hinner,hstep⟩ := List.append_inj' hsteps rfl
      simp only [List.cons.injEq,Step.function.injEq,spellings_eq_map] at hstep
      rw [ih hu hbase hinner,same_parameters hparameters hparameters' ihparameters hstep.1]
    | _ => simp [steps,steps_array] at hsteps
  | qualified h ht hcv ih =>
    cases hu with
    | qualified hu =>
      obtain ⟨hinner,⟨⟩⟩ := List.append_inj' hsteps rfl
      rw [ih hu hbase hinner]
    | _ => simp [steps,steps_array] at hsteps

theorem eq_of_spelling {t u : Node} (h : Declared t) (hu : Declared u)
    (heq : spelling t = spelling u) : t = u := by
  obtain ⟨hbase,hsteps⟩ := h.steps_eq hu heq
  exact h.eq_of_steps hu hbase hsteps

end Declared

end Printing

end MangledNames
