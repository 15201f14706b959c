import MangledNames.Proofs.Limits
import MangledNames.Proofs.Printing.InstanceHalves
import MangledNames.Proofs.Printing.Sound
set_option autoImplicit false

/-!
The list of arguments in the name of a function, and what the parameters in its signature stand for.
The list is printed inside the function's own scope, the parameters are outside of it, so that both
read alike for arguments without parameters.
-/

namespace MangledNames

open Printing

namespace Printing

/-- Where the arguments of a name are listed when it is printed at a place. -/
inductive Lists : Place → Node → List Node → Place → Prop
  | templateName {place : Place} {name : Node} {arguments : List Node} :
    Lists place (.templateName name arguments) arguments place
  | nestedName {place listed : Place} {scope name : Node} {arguments : List Node} :
    Lists place name arguments listed → Lists place (.nestedName scope name) arguments listed
  | abiTaggedName {place listed : Place} {name : Node} {tags : List String}
    {arguments : List Node} :
    Lists place name arguments listed → Lists place (.abiTaggedName name tags) arguments listed
  | entity {place listed : Place} {function : Encoding Node} {entity : Node}
    {arguments : List Node} :
    Lists (place.enter (templateArgsOf function.name)) entity arguments listed →
    Lists place (.localName function entity) arguments listed
  | function {place listed : Place} {function : Encoding Node} {entity : Node}
    {arguments : List Node} :
    templateArgsOf entity = none →
    Lists (place.enter (templateArgsOf function.name)) function.name arguments listed →
    Lists place (.localName function entity) arguments listed

theorem lists_of_templateArgsOf {name : Node} {arguments : List Node}
    (h : templateArgsOf name = some arguments) (place : Place) :
    ∃ listed, Lists place name arguments listed := by
  -- The place changes where an encoding is entered: its own list is a scope for what it prints.
  fun_induction templateArgsOf name generalizing place with
  | case1 name arguments' =>
    cases h
    exact ⟨place,.templateName⟩
  | case2 scope name ih =>
    obtain ⟨listed,hlists⟩ := ih h place
    exact ⟨listed,.nestedName hlists⟩
  | case3 name tags ih =>
    obtain ⟨listed,hlists⟩ := ih h place
    exact ⟨listed,.abiTaggedName hlists⟩
  | case4 function entity arguments' hentity ih =>
    cases h
    obtain ⟨listed,hlists⟩ := ih hentity (place.enter (templateArgsOf function.name))
    exact ⟨listed,.entity hlists⟩
  | case5 entity hentity name signature _ ih =>
    obtain ⟨listed,hlists⟩ := ih h (place.enter (templateArgsOf name))
    exact ⟨listed,.function hentity hlists⟩
  | case6 => cases h

theorem Lists.met (config : Config) {place listed : Place} {name : Node} {arguments : List Node}
    (h : Lists place name arguments listed) :
    ∃ inner, Met config (place,name) (listed,.templateName inner arguments) := by
  induction h with
  | @templateName place name => exact ⟨name,.refl⟩
  | nestedName _ ih =>
    obtain ⟨inner,hmet⟩ := ih
    exact ⟨inner,.head (.tail _ (.head _)) hmet⟩
  | abiTaggedName _ ih =>
    obtain ⟨inner,hmet⟩ := ih
    exact ⟨inner,.head (.head _) hmet⟩
  | entity _ ih =>
    obtain ⟨inner,hmet⟩ := ih
    exact ⟨inner,.head (.tail _ (.head _)) hmet⟩
  | function _ _ ih =>
    obtain ⟨inner,hmet⟩ := ih
    exact ⟨inner,.head (.head _) (.head (.head _) hmet)⟩

/-- A parameter stands for the whole of an argument: no element of a pack is chosen. -/
def Whole (place : Place) (argument : Node) : Prop :=
  place.packIndex = none ∨ ∀ elements, argument ≠ .templateArgPack elements

theorem resolve_entered {place : Place} {arguments : List Node} {index : Nat} {argument : Node}
    (hargument : arguments[index]? = some argument) (hwhole : Whole place argument) :
    resolve (place.enter (some arguments)) index = .ok (argument,place.scopes) := by
  have helement : element place.packIndex index argument = .ok argument := by
    rcases hwhole with hindex | hpack
    · rw [hindex]
      unfold element
      split <;> simp_all
    · unfold element
      split
      · exact absurd rfl (hpack _)
      · rfl
  simp only [resolve,Place.enter,hargument,helement]
  rfl

theorem param_renders {config : Config} {place : Place} {index : Nat} {argument : Node}
    {scopes : Scopes} (h : resolve place index = .ok (argument,scopes))
    (hground : argument.Ground) :
    Renders config place (.templateParam index) argument := by
  have hresolves : Resolves config place (.templateParam index) := by
    intro spot hmet
    cases hmet.cases_head with
    | inl hself =>
      subst hself
      exact ⟨argument,scopes,h,hground⟩
    | inr hpart =>
      obtain ⟨part,hpart,_⟩ := hpart
      cases hpart
  have hinst : (Node.templateParam index).inst place = argument := by simp [Node.inst,h]
  have hrenders := Renders.inst hresolves
  rwa [hinst] at hrenders

def textAfter (config : Config) (levels : Nat) (place : Place) (node : Node) (sheet : Sheet) :
    Except Fault String :=
  ending (fun _ sheet => .ok sheet.output.text)
    ((Halves.levels config levels).print place node sheet)

/-- A node and what it comes to leave the same text on a sheet, unless a limit cuts one of them
off. -/
theorem Renders.textAfter {config : Config} {place : Place} {node node' : Node}
    (h : Renders config place node node') (n k : Nat) (place' : Place) (sheet : Sheet) :
    CutOff (textAfter config n place node sheet) ∨ CutOff (textAfter config k place' node' sheet) ∨
      textAfter config n place node sheet = textAfter config k place' node' sheet := by
  have hsame : SameOptions true config config := ⟨rfl,rfl,rfl,rfl,nofun⟩
  have hsheet : Sheet.Same true sheet sheet := ⟨rfl,rfl,nofun,nofun⟩
  have hresults := (Halves.levels_renders hsame n k place' h).print.results _ _ hsheet
  unfold Printing.textAfter
  generalize (Halves.levels config n).print place node sheet = result at hresults ⊢
  generalize (Halves.levels config k).print place' node' sheet = result' at hresults ⊢
  cases result with
  | ok _ s =>
    cases result' with
    | ok _ t =>
      refine .inr (.inr ?_)
      simp only [ending,Output.text,hresults.2.chunks]
    | error g t => exact .inr (.inl ⟨g,rfl,hresults.2⟩)
  | error f s =>
    cases result' with
    | ok _ t => exact .inl ⟨f,rfl,hresults⟩
    | error g t =>
      rcases hresults with hcut | hcut | hsame
      · exact .inl ⟨f,rfl,hcut⟩
      · exact .inr (.inl ⟨g,rfl,hcut.2⟩)
      · exact .inr (.inr (congrArg Except.error hsame.1.1))

end Printing

/-- The arguments of a function are listed in its name, and where one of them has no parameters, it
reads there as the parameter that stands for it reads in the signature. -/
theorem closed_arguments_are_listed_as_they_stand (config : Config) (place : Place)
    (e : Encoding Node) (arguments : List Node) (hlist : templateArgsOf e.name = some arguments) :
    ∃ listed name, Lists (place.enter (some arguments)) e.name arguments listed ∧
      Met config (place,.encoding e) (listed,.templateName name arguments) ∧
      ∀ index argument, arguments[index]? = some argument → argument.Ground → Whole place argument →
        ∀ n k sheet,
          CutOff (textAfter config n (place.enter (some arguments)) (.templateParam index) sheet) ∨
            CutOff (textAfter config k listed argument sheet) ∨
            textAfter config n (place.enter (some arguments)) (.templateParam index) sheet =
              textAfter config k listed argument sheet := by
  obtain ⟨listed,hlists⟩ := lists_of_templateArgsOf hlist (place.enter (some arguments))
  obtain ⟨name,hmet⟩ := hlists.met config
  refine ⟨listed,name,hlists,.head ?_ hmet,
    fun index argument hargument hground hwhole n k sheet => ?_⟩
  · rw [← hlist]
    exact .head _
  · exact (param_renders (resolve_entered hargument hwhole) hground).textAfter n k listed sheet

/-- Below a template of one argument, both arguments of `f` are listed as the parameters in its
signature read. -/
theorem closed_arguments_are_listed_as_they_stand_two :
    let arguments : List Node := [.builtinType .int,.pointerType (.builtinType .char)]
    let f : Encoding Node := ⟨.templateName (.sourceName "f") arguments,
      some ⟨some (.builtinType .void),[.templateParam 0,.templateParam 1],{},none⟩⟩
    let inside : Place := { scopes := [arguments,[.builtinType .bool]] }
    let text := fun place node =>
      textAfter .standard (levelsOf .standard) place node (.blank .standard)
    text { scopes := [[.builtinType .bool]] } (.encoding f) =
        .ok "void f<int, char*>(int, char*)" ∧
      ∃ listed, Lists inside f.name arguments listed ∧
        text listed (.builtinType .int) = .ok "int" ∧
        text inside (.templateParam 0) = .ok "int" ∧
        text listed (.pointerType (.builtinType .char)) = .ok "char*" ∧
        text inside (.templateParam 1) = .ok "char*" := by
  intro arguments f inside text
  obtain ⟨listed,_,hlists,_,hsame⟩ := closed_arguments_are_listed_as_they_stand .standard
    { scopes := [[.builtinType .bool]] } f arguments rfl
  cases hlists
  have hpointer : (Node.pointerType (.builtinType .char)).Ground :=
    Node.ground_of_children nofun fun part hpart => by
      cases List.mem_singleton.mp hpart
      exact Node.ground_builtinType .char
  have hint := hsame 0 _ rfl (Node.ground_builtinType .int) (.inl rfl) (levelsOf .standard)
    (levelsOf .standard) (.blank .standard)
  have hchars := hsame 1 _ rfl hpointer (.inl rfl) (levelsOf .standard) (levelsOf .standard)
    (.blank .standard)
  have hlisted : text inside (.builtinType .int) = .ok "int" ∧
      text inside (.pointerType (.builtinType .char)) = .ok "char*" := by decide +kernel
  have hwhole : ∀ index < 2, (text inside (.templateParam index)).toBool = true := by
    decide +kernel
  -- neither text is cut off, so each pair of them is one
  have agrees : ∀ {m m' : Except Fault String} {string : String}, CutOff m ∨ CutOff m' ∨ m = m' →
      m.toBool = true → m' = .ok string → m = .ok string := by
    rintro m m' string (⟨_,rfl,_⟩ | ⟨_,rfl,_⟩ | rfl) hm hm'
    · cases hm
    · cases hm'
    · exact hm'
  exact ⟨by decide +kernel,_,.templateName,hlisted.1,agrees hint (hwhole 0 (by decide)) hlisted.1,
    hlisted.2,agrees hchars (hwhole 1 (by decide)) hlisted.2⟩

/-- Inside `g<char>`, the second argument of `f<int, T>` is listed as the first argument of `f`,
while the parameter that stands for it reads as that of `g`. -/
theorem listed_parameters_stand_for_the_list :
    (demangle "_Z1gIcEvDTL_Z1fIiT_EvT0_EE").toOption =
        some "void g<char>(decltype(void f<int, int>(char)))" ∧
      ¬∀ (place : Place) (e : Encoding Node) (arguments : List Node) (listed : Place),
        templateArgsOf e.name = some arguments →
        Lists (place.enter (some arguments)) e.name arguments listed →
        ∀ (index : Nat) (argument : Node), arguments[index]? = some argument →
          textAfter .standard (levelsOf .standard) (place.enter (some arguments))
              (.templateParam index) (.blank .standard) =
            textAfter .standard (levelsOf .standard) listed argument (.blank .standard) := by
  refine ⟨by decide +kernel,fun h => ?_⟩
  have hsame := h { scopes := [[.builtinType .char]] }
    ⟨.templateName (.sourceName "f") [.builtinType .int,.templateParam 0],
      some ⟨some (.builtinType .void),[.templateParam 1],{},none⟩⟩ _ _ rfl .templateName 1 _ rfl
  have htexts : (textAfter .standard (levelsOf .standard)
      { scopes := [[.builtinType .int,.templateParam 0],[.builtinType .char]] } (.templateParam 1)
        (.blank .standard)).toOption = some "char" ∧
      (textAfter .standard (levelsOf .standard)
        { scopes := [[.builtinType .int,.templateParam 0],[.builtinType .char]] } (.templateParam 0)
          (.blank .standard)).toOption = some "int" := by decide +kernel
  have hequal := htexts.1.symm.trans ((congrArg Except.toOption hsame).trans htexts.2)
  exact absurd hequal (by decide)

end MangledNames
