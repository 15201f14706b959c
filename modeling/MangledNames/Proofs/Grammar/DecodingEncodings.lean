import MangledNames.Proofs.Grammar.DecodingNames
import MangledNames.Grammar.Production
set_option autoImplicit false

/-!
Reading the symbol of a function to its end, when its name and its types are known to be read.
-/

namespace MangledNames.Grammar

open Cursor

section
variable {allowed : Bool} {r : Rules} {rest : List Char} {table table' : Substitutions}

theorem atEncodingEnd_refuses {c : Char} {rest : List Char} (h : isTypeStart c = true) :
    Gives atEncodingEnd (Cursor.At (c :: rest)) false (Cursor.At (c :: rest)) := by
  have hstart : (c :: rest)[0]?.any isTypeStart = true := h
  exact (peekIs_gives hstart).bind .pure

theorem atEncodingEnd_gives : Gives atEncodingEnd (Cursor.At []) true (Cursor.At []) :=
  (peekIs_gives rfl).bind .pure

theorem noEncodingParameters_reads :
    Reads allowed (encodingParameters r) ['v'] table [] [] table := by
  unfold encodingParameters
  exact (scanned (consume_gives "v" [])).bind .pure

/-- Where a type starts, the parameters go on. -/
theorem parametersEnd_reads {type : Node} (hopens : Opens type rest) :
    Reads allowed (liftM atEncodingEnd) rest table false rest table := by
  cases rest with
  | nil => exact hopens.elim
  | cons c rest => exact scanned (atEncodingEnd_refuses hopens.1)

theorem furtherParameters_reads {types : List Node}
    (h : Items allowed r.type Opens rest table types [] table') :
    Reads allowed (itemsUntil (liftM atEncodingEnd) r.type) rest table types [] table' :=
  itemsUntil_reads h (fun _ _ _ => parametersEnd_reads) (scanned atEncodingEnd_gives)

theorem encodingParameters_reads {type : Node} {types : List Node}
    (hvoid : type ≠ .builtinType .void)
    (h : Items allowed r.type Opens rest table (type :: types) [] table') :
    Reads allowed (encodingParameters r) rest table (type :: types) [] table' := by
  cases h with
  | cons hopens hread hless hitems =>
    have hv : "v".toList.isPrefixOf rest = false := by
      cases rest with
      | nil => rfl
      | cons c rest =>
        have hc : c ≠ 'v' := fun hc => hvoid (hopens.2.2.1 hc)
        simp [List.isPrefixOf,Ne.symm hc]
    unfold encodingParameters
    refine (scanned (consume_refuses hv)).bind (hread.bind ?_)
    exact (furtherParameters_reads hitems).bind .pure

/-- A function from its name, its return type where the name asks for one, and its parameters. -/
theorem functionEncoding_reads {named : Named} {returnType : Option Node} {parameters : List Node}
    {c : Char} {text rest₂ last : List Char} {table₁ table₂ : Substitutions}
    (hc : isTypeStart c = true ∧ c ≠ 'U')
    (hname : Reads allowed r.name rest table named (c :: text) table₁)
    (hreturn : Reads allowed (if named.traits.spellsReturnType then some <$> r.type else pure none)
      (c :: text) table₁ returnType rest₂ table₂)
    (hparameters : Reads allowed (encodingParameters r) rest₂ table₂ parameters last table') :
    Reads allowed (functionEncoding r) rest table
      (.encoding ⟨named.node,some ⟨returnType,parameters,named.traits.cv,named.traits.ref⟩⟩) last
      table' := by
  have henable : "Ua9enable_ifI".toList.isPrefixOf (c :: text) = false := by
    simp [List.isPrefixOf,Ne.symm hc.2]
  unfold functionEncoding
  refine hname.bind ((scanned (atEncodingEnd_refuses hc.1)).bind ?_)
  refine (scanned (lookingAt_gives henable)).bind (.ifNeg Bool.false_ne_true ?_)
  by_cases hspells : named.traits.spellsReturnType = true
  · rw [if_pos hspells] at hreturn
    exact .ifPos hspells (hreturn.bind (hparameters.bind .pure))
  · rw [if_neg hspells] at hreturn
    exact .ifNeg hspells (hreturn.bind (hparameters.bind .pure))

theorem cloneSuffix_reads : Reads allowed cloneSuffix [] table none [] table := by
  have hend : Reads allowed (return (cloneMark (← here).rest).isEmpty) [] table true [] table := by
    refine here_then fun c hc => ?_
    rw [hc]
    exact .pure
  have hnone : Items allowed (do takeChars (cloneMark (← here).rest).length "clone suffix" :
      Parser (List Char)) (fun _ _ => False) [] table [] [] table := .nil [] table
  unfold cloneSuffix
  refine (itemsUntil_reads hnone ?_ hend).bind .pure
  exact fun _ _ _ hfalse => hfalse.elim

/-- A name without a scope is no special name. -/
theorem not_special {c : Char} (h : isWordStart c = true) : (c == 'T' || c == 'G') = false := by
  have hT : c ≠ 'T' := ne_of_class h rfl
  have hG : c ≠ 'G' := ne_of_class h rfl
  simp [hT,hG]

theorem wholeSymbol_of_encoding {node : Node} {before : Context → Prop}
    (h : Gives r.encoding before node (At allowed [] table')) :
    Gives (wholeSymbol r) before (.mangledName node none) (At allowed [] table') := by
  unfold wholeSymbol mangledName
  refine (h.bind (cloneSuffix_reads.bind (build_reads rfl))).bind ?_
  exact (scanned atEnd_gives).bind .pure

/-- What an encoding has, its symbol has in its own terms. -/
theorem wholeSymbol_yields {before : Context → Prop} {p q : Node → Prop}
    (h : Yields r.encoding before p) (hq : ∀ node marks, p node → q (.mangledName node marks)) :
    Yields (wholeSymbol r) before q := by
  have hmangled : Yields (mangledName r) before q := by
    unfold mangledName build
    refine h.bind fun node hnode => .bind .any fun marks _ => ?_
    exact .ite (fun _ => .pure (hq node marks hnode)) fun _ => .throw
  unfold wholeSymbol
  refine hmangled.bind fun tree htree => .bind .any fun ended _ => ?_
  exact .ite (fun _ => .pure htree) fun _ => .bind .any fun _ _ => .pure htree

theorem wholeSymbol_reads {n : Nat} {node : Node}
    (hspecial : rest[0]?.any (fun c => c == 'T' || c == 'G') = false)
    (h : Reads allowed (functionEncoding (Rules.levels n)) rest table node [] table') :
    Reads allowed (wholeSymbol (Rules.levels (n + 1))) rest table (.mangledName node none) []
      table' := by
  refine wholeSymbol_of_encoding (nested_reads ?_)
  unfold encoding
  exact (scanned (peekIs_gives hspecial)).bind h

end

end MangledNames.Grammar
