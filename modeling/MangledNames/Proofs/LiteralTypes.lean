import MangledNames.Proofs.ClosedTables
import MangledNames.Proofs.Expressions
import MangledNames.Proofs.RoundTrip
set_option autoImplicit false

/-!
The types of literals. Whether a literal is floating is asked of its type through all complex and
imaginary types that it is wrapped in, and the levels that productions nest do not count these.
There are no more of them than entries of the table; but a table gets long without nesting.
-/

namespace MangledNames

namespace Node

/-- How many complex and imaginary types a type is wrapped in. -/
def wrappings : Node → Nat
  | complexType inner | imaginaryType inner => inner.wrappings + 1
  | _ => 0

/-- No literal of a type that is wrapped more often. -/
def LiteralWithin (bound : Nat) (node : Node) : Prop :=
  ∀ type ∈ node.literalType?, type.wrappings ≤ bound

section
variable {entries : List Node} {type : Node}

theorem Known.wrappings_le (h : type.Known entries)
    (hentries : ∀ (i : Nat) (entry : Node), entries[i]? = some entry → entry.wrappings ≤ i + 1) :
    type.wrappings ≤ entries.length := by
  rcases h with ⟨_,rfl⟩ | ⟨_,_,rfl⟩ | hmem
  · exact Nat.zero_le _
  · exact Nat.zero_le _
  · obtain ⟨i,hi,rfl⟩ := List.mem_iff_getElem.mp hmem
    exact (hentries i _ (List.getElem?_eq_getElem hi)).trans hi

end

end Node

open Node

/-- What an entry wraps stands before it: every entry adds at most one level. -/
theorem ClosedTable.wrappings_le {entries : List Node} (h : ClosedTable entries) (i : Nat)
    (entry : Node) (hentry : entries[i]? = some entry) : entry.wrappings ≤ i + 1 := by
  induction i using Nat.strongRecOn generalizing entry with
  | ind i ih =>
    -- What an entry wraps is known from the entries before it alone.
    have inner_le : ∀ inner ∈ entry.components, inner.wrappings ≤ i := by
      intro inner hinner
      have hearlier :=
        ((h i entry hentry).components inner hinner).wrappings_le fun j earlier hj => by
        have hlt : j < i := by
          by_contra hge
          rw [List.getElem?_take_eq_none (Nat.not_lt.mp hge)] at hj
          cases hj
        rw [List.getElem?_take_of_lt hlt] at hj
        exact ih j hlt earlier hj
      exact hearlier.trans (by simp)
    cases entry with
    | complexType inner => exact Nat.succ_le_succ (inner_le inner (by simp [components]))
    | imaginaryType inner => exact Nat.succ_le_succ (inner_le inner (by simp [components]))
    | _ => exact Nat.zero_le _

namespace Grammar

open Cursor

section
variable {r : Rules} {context : Context}

theorem literalOf_within (start : Cursor) {type : Node} (value : List Char)
    (h : type.wrappings ≤ context.entries.length) :
    ClosesFrom context (literalOf start type value) fun after node =>
      node.LiteralWithin after.entries.length := by
  have literal : ∀ node : Node, node.literalType? = none ∨ node.literalType? = some type →
      node.LiteralWithin context.entries.length := by
    rintro node (hnode | hnode) found hfound
    · cases hnode.symm.trans hfound
    · cases hnode.symm.trans hfound
      exact h
  unfold literalOf
  split
  · split
    · exact .pure (literal _ (.inl rfl))
    · exact .fail _
  split
  · exact .pure (literal _ (.inl rfl))
  · exact .pure (literal _ (.inl rfl))
  refine .ite (fun _ => .ite (fun _ => .pure (literal _ (.inr rfl))) fun _ => .fail _) fun _ => ?_
  split
  · exact .build (literal _ (.inr rfl))
  · exact .fail _

theorem exprPrimary_within (hr : r.Root) :
    Closes (exprPrimary r) fun context node => node.LiteralWithin context.entries.length := by
  have valueless : ∀ {context : Context} {node : Node}, node.literalType? = none →
      ClosesFrom context (pure node) fun after node => node.LiteralWithin after.entries.length :=
    fun h => .pure fun type htype => by cases h.symm.trans htype
  unfold exprPrimary
  refine ⟨fun context => .scan fun _ _ _ => .scan fun _ _ _ => .ite (fun _ => ?_) fun _ =>
    .scan fun _ _ _ => .ite (fun _ => valueless rfl) fun _ => ?_⟩
  · exact (hr.encoding.starting _).bind fun _ _ _ _ => .scan fun _ _ _ => valueless rfl
  · refine (hr.type.starting _).bind fun type after _ htype => .closed fun hclosed => .here ?_
    exact .scan fun value _ _ => literalOf_within _ value (htype.wrappings_le hclosed.wrappings_le)

/-- However many levels are left, the types of the literals that are read are wrapped at most as
often as the table is long. -/
theorem literals_within_the_table (n : Nat) :
    Closes (Rules.levels n).exprPrimary fun context node =>
    node.LiteralWithin context.entries.length := by
  cases n with
  | zero => exact .get fun _ => .fail _
  | succ n =>
    exact (exprPrimary_within (Rules.levels_root n)).nested fun _ _ _ hsame h => hsame ▸ h

end

/-! Parameters that each wrap the one before, and a literal behind them. -/

def complexTimes : Nat → Node
  | 0 => .builtinType .double
  | n + 1 => .complexType (complexTimes n)

def complexTable : Nat → Substitutions
  | 0 => {}
  | n + 1 => (complexTable n).append (complexTimes (n + 1))

/-- The type of the parameter before is spelled as a back reference. -/
def complexReference : Nat → List Char
  | 0 => ['d']
  | n + 1 => backReference n

def complexParameters : Nat → List Node
  | 0 => []
  | n + 1 => complexParameters n ++ [complexTimes (n + 1)]

def complexCode : Nat → List Char
  | 0 => []
  | n + 1 => complexCode n ++ 'C' :: complexReference n

def zeroType (n : Nat) : Node := .decltypeType (.floatLiteral (complexTimes n) "0")

def zeroCode (n : Nat) : List Char := 'D' :: 'T' :: 'L' :: (complexReference n ++ ['0','E','E'])

theorem wrappings_complexTimes (n : Nat) : (complexTimes n).wrappings = n := by
  induction n with
  | zero => rfl
  | succ n ih => exact congrArg (· + 1) ih

theorem isFloatingType_complexTimes (n : Nat) : isFloatingType (complexTimes n) = true := by
  induction n with
  | zero => rfl
  | succ n ih => exact ih

theorem complexTable_size (n : Nat) : (complexTable n).entries.size = n := by
  induction n with
  | zero => rfl
  | succ n ih => simp [complexTable,Substitutions.append,ih]

theorem complexTable_last (n : Nat) :
    (complexTable (n + 1)).entries[n]? = some (complexTimes (n + 1)) := by
  have hlast :
    ((complexTable n).entries.push (complexTimes (n + 1)))[(complexTable n).entries.size]? =
      some (complexTimes (n + 1)) := Array.getElem?_push_size
  rwa [complexTable_size] at hlast

theorem complexParameters_wrap {n : Nat} :
    ∀ type ∈ complexParameters n, ∃ inner, type = .complexType inner := by
  induction n with
  | zero => exact nofun
  | succ n ih =>
    intro type htype
    rcases List.mem_append.mp htype with hmem | hmem
    · exact ih type hmem
    · exact ⟨complexTimes n,List.mem_singleton.mp hmem⟩

theorem complexTimes_spelled (n : Nat) :
    Spells 1 (complexTable n) (.type (complexTimes n)) (complexReference n) (complexTable n) := by
  cases n with
  | zero => exact .builtin (.letter rfl)
  | succ n => exact .reference (complexTable_last n)

section
variable {n k : Nat} {rest : List Char}

theorem complexTimes_reads (hrest : Closed rest) :
    Reads true (Rules.levels (k + 1)).type (complexReference n ++ rest) (complexTable n)
      (complexTimes n) rest (complexTable n) :=
  ((complexTimes_spelled n).mono (Nat.le_add_left 1 k)).reads rest hrest

/-- The parameters before, however many, make no difference to how deep the last ones nest. -/
theorem complexParameters_items {others : List Node} {table : Substitutions} (hrest : Closed rest)
    (h : Items true (Rules.levels (k + 2)).type Opens rest (complexTable n) others [] table) :
    Items true (Rules.levels (k + 2)).type Opens (complexCode n ++ rest) {}
      (complexParameters n ++ others) [] table := by
  induction n generalizing rest others with
  | zero => exact h
  | succ n ih =>
    have hwrapped := Spells.wrapped .complex ((complexTimes_spelled n).mono (Nat.le_add_left 1 k))
    have hread := hwrapped.reads rest hrest
    rw [complexCode,complexParameters,List.append_assoc,List.append_assoc]
    refine ih (closed_of_head (by decide)) (.cons (letter_opens _ (by decide)) hread ?_ h)
    simp

theorem zeroLiteral_reads : Reads true (exprPrimary (Rules.levels (k + 1)))
    ('L' :: (complexReference n ++ ['0','E','E'])) (complexTable n)
      (.floatLiteral (complexTimes n) "0") ['E'] (complexTable n) := by
  have hliterals : ∀ literal ∈ ["_Z","Z","DnE","Dn0E"],
      literal.toList.isPrefixOf (complexReference n ++ ['0','E','E']) = false := by
    cases n with
    | zero => decide
    | succ n =>
      obtain ⟨c,code,hcode,_⟩ := backReference_head n
      rw [complexReference,hcode]
      simp only [List.forall_mem_cons]
      exact ⟨rfl,rfl,rfl,rfl,by simp⟩
  have hzero : ∀ start, Reads true (literalOf start (complexTimes n) ['0']) ['E'] (complexTable n)
      (.floatLiteral (complexTimes n) "0") ['E'] (complexTable n) := by
    intro start
    cases n with
    | zero => exact .pure
    | succ n => exact .ifPos (isFloatingType_complexTimes n) .pure
  have htype : Reads true (Rules.levels (k + 1)).type (complexReference n ++ ['0','E','E'])
      (complexTable n) (complexTimes n) (['0'] ++ 'E' :: ['E']) (complexTable n) :=
    complexTimes_reads (closed_of_head (by decide))
  exact typedLiteral_reads hliterals (List.forall_mem_singleton.mpr (by decide)) htype hzero

theorem zeroType_reads :
    Reads true (Rules.levels (k + 4)).type (zeroCode n) (complexTable n) (zeroType n) []
    ((complexTable n).append (zeroType n)) := by
  have hexpression : Reads true (Rules.levels (k + 3)).expression
      ('L' :: (complexReference n ++ ['0','E','E'])) (complexTable n)
      (.floatLiteral (complexTimes n) "0") ['E']
      (complexTable n) := nested_reads (literalExpression_reads (nested_reads zeroLiteral_reads))
  have hopens : Gives (consumeAny ["Dt","DT"]) (Cursor.At (zeroCode n)) true
      (Cursor.At ('L' :: (complexReference n ++ ['0','E','E']))) := consumeAny_second rfl
  refine nested_reads ?_
  unfold type
  refine (scanned (peek_gives 0)).bind ((scanned (peek_gives 1)).bind (remembered_reads ?_))
  unfold decltype
  exact (scanned hopens).bind (hexpression.bind ((scanned (expect_gives "E" _ [])).bind .pure))

theorem complexParameters_reads :
    Reads true (wholeSymbol (Rules.levels (k + 5)))
        (identifierCode "f" ++ (complexCode n ++ zeroCode n)) {}
      (functionTree "f" (complexParameters n ++ [zeroType n])) []
      ((complexTable n).append (zeroType n)) := by
  have hlast : Items true (Rules.levels (k + 4)).type Opens (zeroCode n) (complexTable n)
      [zeroType n] [] ((complexTable n).append (zeroType n)) :=
    .cons (letter_opens _ (by decide)) zeroType_reads (by simp [zeroCode]) (.nil _ _)
  have hitems := complexParameters_items (closed_of_head (by decide)) hlast
  have hvoid : ∀ type ∈ complexParameters n ++ [zeroType n], type ≠ .builtinType .void := by
    intro type htype
    rcases List.mem_append.mp htype with hmem | hmem
    · obtain ⟨inner,rfl⟩ := complexParameters_wrap type hmem
      exact nofun
    · cases List.mem_singleton.mp hmem
      exact nofun
  obtain ⟨type,types,htypes⟩ := List.exists_cons_of_ne_nil
    (List.append_ne_nil_of_right_ne_nil (complexParameters n) (List.cons_ne_nil (zeroType n) []))
  rw [htypes] at hitems hvoid ⊢
  exact functionSymbol_reads ⟨by decide,rfl,rfl,by decide⟩ (hvoid type List.mem_cons_self) hitems

end

end Grammar

open Grammar

/-- A function with `n` parameters that each wrap the one before, and a zero of the last one's
type. -/
def complexSymbol (n : Nat) : String := functionSymbol "f" (complexCode n ++ zeroCode n)

theorem complexSymbol_length_le (n : Nat) : (complexSymbol n).length ≤ (n + 4) * (n + 4) := by
  have reference : ∀ n, (complexReference n).length ≤ n + 3
    | 0 => by decide
    | 1 => by decide
    | n + 2 => by
      have hdigits := spelled_length_le (show 1 < 36 by decide) n.succ_pos
        ((Nat.lt_succ_self n).trans (Nat.lt_pow_self (show 1 < 36 by decide)))
      simp only [complexReference,backReference,List.length_cons,List.length_append,List.length_nil]
      omega
  have code : (complexCode n).length ≤ n * (n + 3) := by
    induction n with
    | zero => exact Nat.le_refl 0
    | succ n ih =>
      have hlast := reference n
      simp only [complexCode,List.length_append,List.length_cons]
      linarith
  have hlast := reference n
  have hname : (identifierCode "f").length = 2 := by simp [identifierCode,spelled]
  simp only [complexSymbol,functionSymbol,String.length_ofList,zeroCode,List.length_append,
    List.length_cons,
    List.length_nil,hname]
  linarith

theorem complexSymbol_parsed {config : Config} {n : Nat} (hlimit : 5 ≤ config.recursionLimit)
    (hsize : (complexSymbol n).length ≤ config.inputSizeLimit) :
    Symbol.parse (complexSymbol n) config = .ok ⟨complexSymbol n,
      functionTree "f" (complexParameters n ++ [zeroType n]),(complexTable n).append
      (zeroType n)⟩ := by
  obtain ⟨k,hk⟩ := Nat.exists_eq_add_of_le' hlimit
  refine parse_marked hsize ?_
  rw [hk]
  exact complexParameters_reads

theorem parameter_within {name : String} {parameters : List Node} {type part : Node}
    (htype : type ∈ parameters) (h : Within part type) :
    Within part (functionTree name parameters) := by
  have hsignature : Within part (.signature { returnType := none, parameters := parameters }) :=
    .child (by simpa [children,fields] using htype) h
  have hencoding : Within part (.encoding ⟨.sourceName name,
      some { returnType := none, parameters := parameters }⟩) :=
    .child (by simp [children,fields]) hsignature
  exact .child (List.mem_singleton_self _) hencoding

/-- Whatever the limit on nesting, from five levels on the type of a literal can be wrapped as often
as one likes: back references wrap it once more with every parameter, at the same depth. -/
theorem literal_types_grow_past_the_limit (config : Config) (n : Nat)
    (hlimit : 5 ≤ config.recursionLimit)
    (hsize : (complexSymbol n).length ≤ config.inputSizeLimit) :
    ∃ symbol, Symbol.parse (complexSymbol n) config = .ok symbol ∧
      symbol.substitutions.size = n + 1 ∧
      ∃ type value, Within (.floatLiteral type value) symbol.tree ∧ type.wrappings = n := by
  refine ⟨_,complexSymbol_parsed hlimit hsize,?_,complexTimes n,"0",?_,wrappings_complexTimes n⟩
  · simp [Substitutions.append,Substitutions.size,complexTable_size]
  · exact parameter_within (List.mem_append_right _ (List.mem_singleton_self _))
      (.child (List.mem_singleton_self _) .self)

theorem literal_types_grow_past_the_limit_shallow :
    ∃ symbol, Symbol.parse (complexSymbol 61) { recursionLimit := 5 } = .ok symbol ∧
      symbol.substitutions.size = 62 ∧
      ∃ type value, Within (.floatLiteral type value) symbol.tree ∧ type.wrappings = 61 :=
  literal_types_grow_past_the_limit { recursionLimit := 5 } 61 (by decide)
    ((complexSymbol_length_le 61).trans (by decide))

/-- Twelve times the limit is no bound. -/
theorem literal_types_are_not_limited :
    ¬∀ (raw : String) (config : Config) (symbol : Symbol), Symbol.parse raw config = .ok symbol →
      symbol.tree.Throughout (·.LiteralWithin (12 * config.recursionLimit)) := by
  intro h
  have hparse := @complexSymbol_parsed { recursionLimit := 5 } 61 (by decide)
    ((complexSymbol_length_le 61).trans (by decide))
  have hliteral : (Node.floatLiteral (complexTimes 61) "0").LiteralWithin 60 :=
    h _ _ _ hparse _ (parameter_within (List.mem_append_right _ (List.mem_singleton_self _))
      (.child (List.mem_singleton_self _) .self))
  have hwrapped := hliteral _ rfl
  rw [wrappings_complexTimes] at hwrapped
  exact absurd hwrapped (by decide)

end MangledNames
