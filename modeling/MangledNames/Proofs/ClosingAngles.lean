import MangledNames.Proofs.Printing.AngleHalves
import MangledNames.Symbol
set_option autoImplicit false

/-!
Closing angle brackets: where the option that sets them apart does so, and where the text of a type
may bring two of them together.
-/

namespace MangledNames

namespace Printing

variable {config : Config}

theorem templateArgs_closes (hspaced : config.closingAngleSpace = true) {n : Nat} {place : Place}
    {arguments : List Node} {s t : Sheet} (hs : s.Sound)
    (hrun : templateArgs config (Halves.levels config n) place arguments s = .ok () t) :
    ∃ before, t.output.text = before ++ ">" ∧ before.toList.getLast? ≠ some '>' := by
  obtain ⟨_,_,htext,listed,rfl,_⟩ :=
    templateArgs_text (Says.of_grows (Halves.printList_grows n place arguments)) s hs () t hrun
  rw [argumentsGap,if_pos hspaced] at htext
  refine ⟨s.output.text ++ ("<" ++ listed ++ angleGap ("<" ++ listed)),?_,?_⟩
  · rw [htext]
    simp only [String.append_assoc]
  · rw [String.toList_append,List.getLast?_append_of_ne_nil _ (by simp)]
    exact angleGap_last ("<" ++ listed)

theorem cast_text {n : Nat} {place : Place} {keyword : CastKeyword}
    {type operand : Node} {s t : Sheet} (hs : s.Sound)
    (hrun : (Halves.levels config (n + 1)).left place (.castExpression keyword type operand)
      s = .ok () t) :
    ∃ typed inner, Continues ((Halves.levels config n).print place type)
        (s.output.text ++ (keyword.text ++ "<")) typed ∧
      t.output.text = s.output.text ++ (keyword.text ++ "<") ++ typed ++ ">" ++ "(" ++
        inner ++ ")" := by
  obtain ⟨_,s₀,hstep,hrun⟩ := bind_ok hrun
  obtain ⟨_,s₁,hopen,hrun⟩ := bind_ok hrun
  obtain ⟨_,s₂,hprint,hrun⟩ := bind_ok hrun
  have hsame := step_ok hstep
  obtain ⟨hs₀,htext₀⟩ := step_puts.known hs hstep
  obtain ⟨hs₁,htext₁⟩ := (Says.write _).known hs₀ hopen
  obtain ⟨hs₂,typed,htext₂,htyped⟩ := (Halves.print_grows n place type).continues hs₁ hprint
  have closes : Says (do
      (Halves.levels config n).print place operand
      write ")") fun text => ∃ inner, text = inner ++ ")" :=
    (Says.of_grows (Halves.print_grows n place operand)).bind (fun _ => Says.write ")")
      fun inner _ _ hclosing => ⟨inner,by rw [hclosing]⟩
  obtain ⟨_,_,hadded,_,rfl,_,rfl,inner,rfl⟩ := ((closes.written "(").written ">") s₂ hs₂ () t hrun
  rw [String.append_empty] at htext₀
  rw [htext₁,htext₀] at htext₂ htyped
  exact ⟨typed,inner,htyped,by rw [hadded,htext₂]; simp only [String.append_assoc]⟩

theorem render_angles (hspaced : config.closingAngleSpace = true) {node : Node}
    (h : Angled config ({},node)) {text : String} (htext : node.render config = .ok text) :
    AnglesApart text.toList :=
  Says.render (print_angles (Halves.levels_angles hspaced _) h) htext

/-- A list of arguments is closed behind a space if it ends with `>`, and a cast right behind the
text of its type. So no two closing brackets of a text are adjacent, as long as no name brings `>`
with it and no type in a cast or in front of a string ends with one. -/
theorem closing_angles_stand_apart (config : Config) (hspaced : config.closingAngleSpace = true) :
    (∀ n place s t, s.Sound →
      (∀ arguments, templateArgs config (Halves.levels config n) place arguments s = .ok () t →
        ∃ before, t.output.text = before ++ ">" ∧ before.toList.getLast? ≠ some '>') ∧
      ∀ keyword type operand,
        (Halves.levels config (n + 1)).left place (.castExpression keyword type operand)
          s = .ok () t →
        ∃ typed inner, Continues ((Halves.levels config n).print place type)
            (s.output.text ++ (keyword.text ++ "<")) typed ∧
          t.output.text = s.output.text ++ (keyword.text ++ "<") ++ typed ++ ">" ++ "(" ++
            inner ++ ")") ∧
    ∀ node text, node.Throughout AngledNames → node.Throughout AsRead →
      (∀ spot, Visited config ({},node) spot → FramesApart config spot) →
      node.render config = .ok text → AnglesApart text.toList := by
  refine ⟨fun n place s t hs => ⟨fun _ hrun => templateArgs_closes hspaced hs hrun,fun _ _ _ hrun =>
    cast_text hs hrun⟩,fun node text hnames hread hframes htext => ?_⟩
  have hscopes : ∀ p : Node → Prop, ScopesThroughout p ({} : Place).scopes :=
    fun _ => List.forall_mem_nil _
  refine render_angles hspaced (fun spot hvisited => ?_) htext
  exact ⟨(visited_throughout hvisited ⟨hnames,hscopes _⟩).node.self,
    (visited_throughout hvisited ⟨hread,hscopes _⟩).node.self,hframes spot hvisited⟩

def nestedLists : Node :=
  .templateName (.sourceName "a") [.templateName (.sourceName "b") [.builtinType .int]]

theorem nestedLists_throughout {p : Node → Prop}
    (h : ∀ node, node.framedType? = none → AsRead node →
    (∀ name ∈ node.spelledNames, name = "a" ∨ name = "b") → p node) : nestedLists.Throughout p := by
  have template : ∀ {name argument}, name = "a" ∨ name = "b" → argument.Throughout p →
      (Node.templateName (.sourceName name) [argument]).Throughout p := by
    intro name argument hname hargument
    have hspelled : (Node.sourceName name).Throughout p :=
      .of_children (h _ rfl trivial (by simpa [Node.spelledNames] using hname))
        (List.forall_mem_nil _)
    have hlist : (Node.templateArgs [argument]).Throughout p :=
      .of_children (h _ rfl trivial (List.forall_mem_nil _))
        (List.forall_mem_singleton.mpr hargument)
    refine .of_children (h _ rfl trivial (List.forall_mem_nil _))
      (List.forall_mem_cons.mpr ⟨hspelled,?_⟩)
    exact List.forall_mem_singleton.mpr hlist
  refine template (.inl rfl) (template (.inr rfl) ?_)
  exact .of_children (h _ rfl trivial (List.forall_mem_nil _)) (List.forall_mem_nil _)

theorem closing_angles_stand_apart_nested :
    (∃ t, templateArgs .standard (Halves.levels .standard 6) {} [nestedLists]
        (.blank .standard) = .ok () t ∧
      ∃ before, t.output.text = before ++ ">" ∧ before.toList.getLast? ≠ some '>') ∧
    (∃ t, (Halves.levels .standard 6).left {}
        (.castExpression .staticCast nestedLists .nullptrLiteral) (.blank .standard) = .ok () t ∧
      ∃ typed inner, Continues ((Halves.levels .standard 5).print {} nestedLists)
          ("" ++ (CastKeyword.staticCast.text ++ "<")) typed ∧
        t.output.text = "" ++ (CastKeyword.staticCast.text ++ "<") ++ typed ++ ">" ++ "(" ++
          inner ++ ")") ∧
    nestedLists.render .standard = .ok "a<b<int> >" ∧ AnglesApart "a<b<int> >".toList := by
  obtain ⟨hlocal,hwhole⟩ := closing_angles_stand_apart .standard rfl
  have htext : nestedLists.render .standard = .ok "a<b<int> >" := by decide +kernel
  refine ⟨?_,?_,htext,?_⟩
  · have hprinted : textOf (templateArgs .standard (Halves.levels .standard 6) {} [nestedLists]) =
        some "<a<b<int> > >" := by decide +kernel
    obtain ⟨t,hrun,_⟩ := textOf_eq hprinted
    exact ⟨t,hrun,(hlocal 6 {} _ t (.blank .standard)).1 _ hrun⟩
  · have hprinted : textOf ((Halves.levels .standard 6).left {}
        (.castExpression .staticCast nestedLists .nullptrLiteral)) =
        some "static_cast<a<b<int> >>(nullptr)" := by
      decide +kernel
    obtain ⟨t,hrun,_⟩ := textOf_eq hprinted
    exact ⟨t,hrun,(hlocal 5 {} _ t (.blank .standard)).2 _ _ _ hrun⟩
  · have hnames : nestedLists.Throughout AngledNames :=
      nestedLists_throughout fun node _ _ hspelled name hname =>
      (hspelled name hname).elim (fun hsame => hsame ▸ .of_no_angle (by decide))
        fun hsame => hsame ▸ .of_no_angle (by decide)
    have hread : nestedLists.Throughout AsRead := nestedLists_throughout fun _ _ h _ => h
    have hunframed : ThroughoutAt (·.framedType? = none) ({},nestedLists) :=
      ⟨nestedLists_throughout fun _ h _ _ => h,List.forall_mem_nil _⟩
    refine hwhole nestedLists _ hnames hread (fun spot hvisited type hframed => ?_) htext
    exact absurd ((visited_throughout hvisited hunframed).node.self.symm.trans hframed)
      (Option.some_ne_none _).symm

/-- A cast to a type that ends with `>` closes its bracket right behind it. -/
theorem casts_close_behind_types :
    (demangle "_Z1fIXsc1AIiELi0EEEvv").toOption = some "void f<static_cast<A<int>>(0)>()" ∧
    ¬∀ raw text, (demangle raw).toOption = some text → AnglesApart text.toList := by
  have hprinted :
      (demangle "_Z1fIXsc1AIiELi0EEEvv").toOption = some "void f<static_cast<A<int>>(0)>()" := by
    decide +kernel
  refine ⟨hprinted,fun h => ?_⟩
  have hshift :=
    (h _ _ hprinted).shift "void f<static_cast<A<int".toList "(0)>()".toList (by decide)
  revert hshift
  unfold MayShift
  decide

end Printing

end MangledNames
