import MangledNames.Proofs.Grammar.SoundWords
set_option autoImplicit false

/-!
Template arguments, types and names read on and give sound nodes, if the productions below them do.
-/

namespace MangledNames.Grammar

open Cursor

/-- Rules of which each reads at least one character and gives a sound node. -/
structure Rules.Sound (r : Rules) : Prop where
  encoding : Runs 1 r.encoding Node.Sound
  function : ∀ next : Option Char, next.any (fun c => c == 'T' || c == 'G') = false →
    RunsAt next 1 r.encoding fun node => ∃ e, node = .encoding e ∧ node.Sound
  specialName : Runs 1 r.specialName Node.Sound
  name : Runs 1 r.name fun named => named.node.Sound
  nestedName : Runs 1 r.nestedName fun named => named.node.Sound
  localName : Runs 1 r.localName fun named => named.node.Sound
  unqualifiedName : Runs 1 r.unqualifiedName fun named => named.node.Sound
  templateArgs : Runs 1 r.templateArgs fun nodes => ∀ node ∈ nodes, node.Sound
  templateArg : Runs 1 r.templateArg Node.Sound
  type : Runs 1 r.type Node.Sound
  expression : Runs 1 r.expression Node.Sound
  exprPrimary : Runs 1 r.exprPrimary Node.Sound
  unresolvedName : ∀ globalScope, Runs 1 (r.unresolvedName globalScope) Node.Sound

section
variable {α : Type} {n : Nat} {p : α → Prop}

theorem literal_runs (literal production : String) :
    Runs 0 (liftM (expect literal production) : Parser Unit) fun _ => True :=
  scanning_runs (expect_runs literal production (Nat.zero_le _))

theorem letter_runs (literal production : String) (h : 1 ≤ literal.toList.length) :
    Runs 1 (liftM (expect literal production) : Parser Unit) fun _ => True :=
  scanning_runs (expect_runs literal production h)

theorem consumed_runs (literal : String) :
    Runs 0 (liftM (consume literal) : Parser Bool) fun _ => True :=
  scanning_runs (consume_runs literal)

/-- A literal that comes next is read; whatever else does is read by the alternative. -/
theorem consumed_else {literal : String} {found missing : Parser α}
    (h : n ≤ literal.toList.length) (hfound : Runs 0 found p) (hmissing : Runs n missing p) :
    Runs n (do if ← consume literal then found else missing : Parser α) p :=
  RunsTo.bind (scanning_runsTo (consume_runsTo literal)) fun _ isFound hd => RunsTo.ite
    (fun hisFound => RunsTo.imp hfound fun _ _ ha => ⟨by have := hd hisFound; omega,ha.2⟩)
    fun _ => RunsTo.imp hmissing fun _ _ ha => ⟨by omega,ha.2⟩

theorem lookedAt_runs (literal : String) :
    Runs 0 (liftM (lookingAt literal) : Parser Bool) fun _ => True :=
  scanning_runs (lookingAt_runs literal)

theorem peeked_runs (ofClass : Char → Bool) (distance : Nat) :
    Runs 0 (liftM (peekIs ofClass distance) : Parser Bool) fun _ => True :=
  scanning_runs (peekIs_runs ofClass distance)

theorem code_runs (production : String) :
    Runs 1 (liftM (takeCode production) : Parser Code) fun _ => True :=
  (scanning_runs (takeCode_runs production)).le (by decide)

end

section
variable {r : Rules} (hr : r.Sound)
include hr

theorem templateArgs?_runs : Runs 0 r.templateArgs? Node.ListSound := by
  unfold Rules.templateArgs?
  refine (lookedAt_runs "I").first fun _ _ => Runs.ite (fun _ => ?_) fun _ => Runs.pure trivial
  exact hr.templateArgs.rest.map fun nodes hnodes => Node.allSound_iff.mpr hnodes

theorem withTemplateArgs_runs {name : Node} (h : name.Sound) :
    Runs 0 (r.withTemplateArgs name) Node.Sound := by
  unfold Rules.withTemplateArgs
  refine (templateArgs?_runs hr).first fun arguments ha => ?_
  cases arguments with
  | none => exact Runs.pure h
  | some arguments => exact Runs.pure ⟨h,ha⟩

theorem templateArgs_runs : Runs 1 (templateArgs r) fun nodes => ∀ node ∈ nodes, node.Sound := by
  unfold templateArgs
  exact (letter_runs "I" _ (by decide)).first fun _ _ =>
    allowingTemplateArgs_runs true (itemsToE_runs hr.templateArg)

theorem templateArg_runs : Runs 1 (templateArg r) Node.Sound := by
  unfold templateArg
  refine (scanning_runs (peek_runs 0)).andThen fun c _ => ?_
  split
  · exact (letter_runs "X" _ (by decide)).first fun _ _ => hr.expression.rest.first fun _ h =>
      (literal_runs "E" _).first fun _ _ => Runs.pure h
  · exact (letter_runs "J" _ (by decide)).first fun _ _ => (itemsToE_runs hr.templateArg).first
      fun _ h => Runs.pure (Node.allSound_iff.mpr h)
  · exact hr.templateArgs.first fun _ h => Runs.pure (Node.allSound_iff.mpr h)
  · exact hr.exprPrimary
  · exact hr.type

theorem decltype_runs : Runs 1 (decltype r) Node.Sound := by
  unfold decltype
  refine (scanning_runs (consumeAny_runs _)).andThen fun _ _ =>
    Runs.guardNot (unexpected_runs _) ?_
  exact hr.expression.first fun _ h => (literal_runs "E" _).first fun _ _ => Runs.pure h

theorem exceptionSpec_runs : Runs 0 (exceptionSpec r) Node.SpecSound := by
  unfold exceptionSpec
  refine (consumed_runs "Do").first fun _ _ => Runs.ite (fun _ => Runs.pure trivial) fun _ => ?_
  refine (consumed_runs "DO").first fun _ _ => Runs.ite (fun _ => ?_) fun _ => ?_
  · exact hr.expression.rest.first fun _ h => (literal_runs "E" _).first fun _ _ => Runs.pure h
  refine (consumed_runs "Dw").first fun _ _ => Runs.ite (fun _ => ?_) fun _ => Runs.pure trivial
  exact (itemsToE_runs hr.type).first fun _ h => Runs.pure (Node.allSound_iff.mpr h)

omit hr in
theorem functionTypeEnd_runs : Runs 0 functionTypeEnd fun _ => True := by
  unfold functionTypeEnd
  refine (consume_runs "E").first fun _ _ => Runs.ite (fun _ => Runs.pure trivial) fun _ => ?_
  refine (consume_runs "RE").first fun _ _ => Runs.ite (fun _ => Runs.pure trivial) fun _ => ?_
  exact (consume_runs "OE").first fun _ _ => Runs.ite (fun _ => Runs.pure trivial) fun _ =>
    Runs.pure trivial

theorem functionTypeParameters_runs :
    Runs 0 (functionTypeParameters r) fun parameters => ∀ node ∈ parameters.1, node.Sound := by
  refine repeatRound_runs (i := fun nodes => ∀ node ∈ nodes, node.Sound) (by simp) ?_
  intro nodes hnodes
  refine RunsTo.bind (scanning_runs functionTypeEnd_runs) fun d found _ => ?_
  split
  · exact RunsTo.pure (by simpa [RoundGood] using hnodes)
  · refine RunsTo.bind (scanning_runsTo (consume_runsTo "v")) fun e isVoid he =>
      RunsTo.ite (fun h => ?_) fun _ => ?_
    · have hlit := he h
      exact RunsTo.pure ⟨by simp at hlit; omega,hnodes⟩
    · refine RunsTo.bind hr.type fun f node hnode => RunsTo.pure ⟨by omega,?_⟩
      simpa [hnode.2] using hnodes

theorem functionType_runs : Runs 1 (functionType r) Node.Sound := by
  unfold functionType
  refine (exceptionSpec_runs hr).andThen fun spec hspec => (consumed_runs "Dx").andThen fun _ _ =>
    (letter_runs "F" _ (by decide)).first fun _ _ => (consumed_runs "Y").first fun _ _ => ?_
  refine hr.type.rest.first fun returnType hreturn => (functionTypeParameters_runs hr).first
    fun found hfound => Runs.pure ?_
  exact ⟨hreturn,Node.allSound_iff.mpr hfound,hspec⟩

theorem arrayType_runs : Runs 1 (arrayType r) Node.Sound := by
  unfold arrayType
  refine (letter_runs "A" _ (by decide)).first fun _ _ => (consumed_runs "_").first fun _ _ => ?_
  have element : ∀ dimension, (∀ node : Node, node.Sound → (node.arrayType dimension).Sound) →
      Runs 0 (do return .arrayType (← r.type) dimension : Parser Node) Node.Sound :=
    fun _ h => hr.type.rest.first fun node hnode => Runs.pure (h node hnode)
  refine (peeked_runs isDigit 0).first fun _ _ => Runs.ite (fun _ => ?_) fun _ =>
    Runs.ite (fun _ => ?_) fun _ => ?_
  · exact (Runs.pure (p := (· = none)) rfl).first fun _ h => element _ fun _ hn => h ▸ hn
  · refine (scanning_runs (unsigned_runs _)).rest.first fun size _ => (literal_runs "_" _).first
      fun _ _ => (Runs.pure (p := (· = some (.size size))) rfl).first fun _ h => ?_
    exact element _ fun _ hn => h ▸ ⟨hn,trivial⟩
  · refine hr.expression.rest.first fun e he => (literal_runs "_" _).first
      fun _ _ => (Runs.pure (p := (· = some (.expression e))) rfl).first fun _ h => ?_
    exact element _ fun _ hn => h ▸ ⟨hn,he⟩

theorem vectorType_runs : Runs 1 (vectorType r) Node.Sound := by
  unfold vectorType
  refine (letter_runs "Dv" _ (by decide)).first fun _ _ => (consumed_runs "_").first fun _ _ => ?_
  have element : ∀ dimension, Node.DimensionSound dimension → Runs 0 (do
      expect "_" "vector dimension"
      return .vectorType (← r.type) dimension : Parser Node) Node.Sound :=
    fun _ h => (literal_runs "_" _).first fun _ _ => hr.type.rest.first fun _ hnode =>
      Runs.pure ⟨hnode,h⟩
  refine Runs.ite (fun _ => ?_) fun _ => ?_
  · exact (hr.expression.rest.map (f := Dimension.expression)
      (g := Node.DimensionSound) fun _ he => he).first element
  · exact ((scanning_runs (unsigned_runs _)).rest.map (f := Dimension.size)
      (g := Node.DimensionSound) fun _ _ => trivial).first element

omit hr in
theorem qualify_runs {cv : CvQualifiers} {inner : Node} (hcv : cv.isEmpty = false)
    (h : inner.Sound) : Runs 0 (qualify cv inner) Node.Sound := by
  unfold qualify
  split
  · exact Runs.pure h
  · exact build_runs _ (by simp [Node.wellFormed,hcv]) ⟨hcv,h⟩

omit hr in
theorem builtinAfterD_runs : Runs 1 builtinAfterD Node.Sound := by
  unfold builtinAfterD
  refine here_runs.andThen fun start _ => ?_
  split
  · split
    · exact (code_runs _).first fun _ _ => Runs.pure trivial
    · exact fail_runs _
  · exact fail_runs _

theorem typeAfterD_runs : Runs 1 (typeAfterD r) Node.Sound := by
  unfold typeAfterD
  refine (scanning_runs (peek_runs 1)).andThen fun c _ => ?_
  split
  · exact remembered_runs ((code_runs _).first fun _ _ => hr.type.rest.first fun _ h => Runs.pure h)
  · exact remembered_runs (decltype_runs hr)
  · exact remembered_runs (decltype_runs hr)
  · exact remembered_runs (vectorType_runs hr)
  · exact remembered_runs (functionType_runs hr)
  · exact remembered_runs (functionType_runs hr)
  · exact remembered_runs (functionType_runs hr)
  · exact remembered_runs (functionType_runs hr)
  · exact (code_runs _).first fun _ _ => (scanning_runs (digits_runs _)).rest.first fun _ _ =>
      (literal_runs "_" _).first fun _ _ => Runs.pure trivial
  · exact builtinAfterD_runs

theorem typeAfterT_runs : Runs 1 (typeAfterT r) Node.Sound := by
  unfold typeAfterT
  refine (scanning_runs (peek_runs 1)).andThen fun c _ => ?_
  split
  · exact remembered_runs ((code_runs _).first fun _ _ => hr.name.rest.first fun _ h => Runs.pure h)
  · refine remembered_runs (templateParam_runs.first fun param hparam => get_runs.first
      fun context _ => (lookedAt_runs "I").first fun _ _ => Runs.ite (fun _ => ?_) fun _ => ?_)
    · exact (remember_runs hparam).first fun _ _ => hr.templateArgs.rest.first fun _ h =>
        Runs.pure ⟨hparam,Node.allSound_iff.mpr h⟩
    · exact Runs.pure hparam

theorem typeAfterS_runs : Runs 1 (typeAfterS r) Node.Sound := by
  unfold typeAfterS
  refine (scanning_runs (peek_runs 1)).andThen fun c _ => Runs.ite (fun _ => ?_) fun _ => ?_
  · exact remembered_runs (hr.name.map fun _ h => h)
  · refine substitution_runs.first fun name hname => get_runs.first fun context _ =>
      (lookedAt_runs "I").first fun _ _ => Runs.ite (fun _ => ?_) fun _ => Runs.pure hname
    exact remembered_runs (hr.templateArgs.rest.map fun _ h => ⟨hname,Node.allSound_iff.mpr h⟩)

omit hr in
/-- What starts with the letter of a qualifier has some. -/
theorem cvQualifiers_ends {c : Char} (h : c = 'r' ∨ c = 'V' ∨ c = 'K') {cursor : Cursor}
    (hnext : cursor.rest[0]? = some c) :
    Ends (fun cv t => cursor.Leads t ∧ 1 ≤ t.position - cursor.position ∧ cv.isEmpty = false)
      (fun f t => cursor.Leads t ∧ f.IsMalformed) (cvQualifiers cursor) := by
  have volatile : Runs 0 (do
      let const ← consume "K"
      return ⟨false,true,const⟩ : Scan CvQualifiers) fun cv => cv.isEmpty = false :=
    (consume_runs "K").first fun const _ => Runs.pure rfl
  have restrict : Runs 0 (do
      let volatile ← consume "V"
      let const ← consume "K"
      return ⟨true,volatile,const⟩ : Scan CvQualifiers) fun cv => cv.isEmpty = false :=
    (consume_runs "V").first fun volatile _ => (consume_runs "K").first fun const _ => Runs.pure rfl
  obtain ⟨passed,_ | ⟨x,rest⟩⟩ := cursor
  · cases hnext
  obtain rfl : x = c := by simpa using hnext
  have step : Cursor.Leads ⟨passed,x :: rest⟩ ⟨x :: passed,rest⟩ := ⟨[x],rfl,rfl⟩
  have onward : ∀ t : Cursor, Cursor.Leads ⟨x :: passed,rest⟩ t →
      Cursor.Leads ⟨passed,x :: rest⟩ t ∧ 1 ≤ t.position - Cursor.position ⟨passed,x :: rest⟩ := by
    intro t ht
    have hle := ht.position_le
    refine ⟨step.trans ht,?_⟩
    simp only [position,List.length_cons] at hle ⊢
    omega
  rcases h with rfl | rfl | rfl
  · refine (restrict.ends ⟨'r' :: passed,rest⟩ trivial).imp (fun _ t ht => ?_) fun _ _ ht =>
      ⟨step.trans ht.1,ht.2⟩
    exact ⟨(onward t ht.1).1,(onward t ht.1).2,ht.2.2⟩
  · refine (volatile.ends ⟨'V' :: passed,rest⟩ trivial).imp (fun _ t ht => ?_) fun _ _ ht =>
      ⟨step.trans ht.1,ht.2⟩
    exact ⟨(onward t ht.1).1,(onward t ht.1).2,ht.2.2⟩
  · exact ⟨step,(onward _ (.refl _)).2,rfl⟩

theorem type_runs : Runs 1 (type r) Node.Sound := by
  have wrapped : ∀ {next : Option Char} (letter production : String) (wrap : Node → Node),
      1 ≤ letter.toList.length → (∀ node, node.Sound → (wrap node).Sound) →
      RunsAt next 1 (remembered do
        expect letter production
        return wrap (← r.type)) Node.Sound :=
    fun letter production wrap hletter hwrap => .of_runs (remembered_runs
      ((letter_runs letter _ hletter).first fun _ _ => hr.type.rest.first fun node h =>
        Runs.pure (hwrap node h)))
  have named :
      ∀ {next : Option Char}, RunsAt next 1 (remembered (Named.node <$> r.name)) Node.Sound :=
    .of_runs (remembered_runs (hr.name.map fun _ h => h))
  have qualified : ∀ {c : Char}, c = 'r' ∨ c = 'V' ∨ c = 'K' → RunsAt (some c) 1 (remembered do
      let cv ← cvQualifiers
      qualify cv (← r.type)) Node.Sound := fun h => RunsAt.first (RunsAt.first
        (scanning_runsAt fun _ hnext => cvQualifiers_ends h hnext) fun cv hcv =>
          hr.type.rest.first fun inner hinner => qualify_runs hcv hinner) fun node hnode =>
            (remember_runs hnode).first fun _ _ => Runs.pure hnode
  unfold type
  refine peek_runsAt fun c => ?_
  split
  · exact .of_runs (unexpected_runs _)
  · exact qualified (.inl rfl)
  · exact qualified (.inr (.inl rfl))
  · exact qualified (.inr (.inr rfl))
  · exact .of_runs (remembered_runs ((letter_runs "U" _ (by decide)).first fun _ _ =>
      (scanning_runs identifier_runs).rest.first fun _ _ => (templateArgs?_runs hr).first
        fun arguments harguments => hr.type.rest.first fun node h => Runs.pure ⟨h,harguments⟩))
  · exact wrapped "P" _ .pointerType (by decide) fun _ h => h
  · exact wrapped "R" _ (.referenceType · .lvalue) (by decide) fun _ h => h
  · exact wrapped "O" _ (.referenceType · .rvalue) (by decide) fun _ h => h
  · exact wrapped "C" _ .complexType (by decide) fun _ h => h
  · exact wrapped "G" _ .imaginaryType (by decide) fun _ h => h
  · exact .of_runs (remembered_runs (functionType_runs hr))
  · exact .of_runs (remembered_runs (arrayType_runs hr))
  · exact .of_runs (remembered_runs ((letter_runs "M" _ (by decide)).first fun _ _ =>
      hr.type.rest.first fun _ hclass => hr.type.rest.first fun _ hmember =>
        Runs.pure ⟨hclass,hmember⟩))
  · exact .of_runs (typeAfterT_runs hr)
  · exact .of_runs (typeAfterD_runs hr)
  · exact .of_runs (remembered_runs ((letter_runs "u" _ (by decide)).first fun _ _ =>
      (scanning_runs identifier_runs).rest.first fun _ _ => (templateArgs?_runs hr).first
        fun _ harguments => Runs.pure harguments))
  · exact .of_runs (typeAfterS_runs hr)
  · exact named
  · exact named
  · split
    · exact named
    · split
      · exact .of_runs ((scanning_runs (next_runs _)).first fun _ _ => Runs.pure trivial)
      · exact .of_runs (unexpected_runs _)

end

end MangledNames.Grammar
