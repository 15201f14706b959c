import MangledNames.Proofs.Printing.Collapsing
set_option autoImplicit false

/-!
The loops that look through types end: the one for a type without its qualifiers and parameters, the
one for the core that tells whether there is a right half, and the one for the reference that
references come to. Each of them is taken apart into its iterations.
-/

namespace MangledNames.Printing

def argumentOnce (packIndex : Option Nat) : Scopes → Nat → Except DemangleError (Option Spot)
  | [], _ => .ok none
  | arguments :: outer, index =>
    match arguments[index]? with
    | none => .ok none
    | some argument => (fun found => some (outer, found)) <$> element packIndex index argument

def lookOnce (packIndex : Option Nat) : Spot → Except DemangleError (Option Spot)
  | (scopes, .qualifiedType inner _) => .ok (some (scopes, inner))
  | (scopes, .vendorQualifiedType inner _ _) => .ok (some (scopes, inner))
  | (scopes, .templateParam index) => argumentOnce packIndex scopes index
  | _ => .ok none

def target? : Node → Option Node
  | .pointerType inner => some inner
  | .referenceType inner _ => some inner
  | .pointerToMemberType _ inner => some inner
  | _ => none

/-- What is looked at next in search of something to the right of a declarator. -/
def descendOnce (packIndex : Option Nat) (spot : Spot) : Except DemangleError (Option Spot) :=
  match target? spot.2 with
  | some inner => .ok (some (spot.1, inner))
  | none => lookOnce packIndex spot

/-- What is looked at next while a reference is collapsed: parameters lead to references only. -/
def followOnce (packIndex : Option Nat) : Spot → Except DemangleError (Option Spot)
  | (scopes, .referenceType referent _) => .ok (some (scopes, referent))
  | (scopes, .templateParam index) =>
    (Option.filter (isReference ·.2)) <$> argumentOnce packIndex scopes index
  | _ => .ok none

/-- A loop goes on from the first spot to the next one. -/
def Moves (once : Spot → Except DemangleError (Option Spot)) (first next : Spot) : Prop :=
  once first = .ok (some next)

/-- How a loop ends that stops where nothing comes next. -/
inductive LoopEnds (once : Spot → Except DemangleError (Option Spot)) :
    Spot → Except DemangleError Spot → Prop
  | stops {last : Spot} : once last = .ok none → LoopEnds once last (.ok last)
  | fails {last : Spot} {error : DemangleError} : once last = .error error →
    LoopEnds once last (.error error)
  | moves {first next : Spot} {r : Except DemangleError Spot} : Moves once first next →
    LoopEnds once next r → LoopEnds once first r

/-- One scope is left behind, or the scopes stay and a part of the node comes next. -/
def Inward (first next : Spot) : Prop :=
  (∃ arguments, first.1 = arguments :: next.1) ∨ next.1 = first.1 ∧ next.2 ∈ first.2.children

/-- A part of the node in the same scopes, or what a parameter stands for. -/
def ComesNext (packIndex : Option Nat) (first next : Spot) : Prop :=
  (next.1 = first.1 ∧ next.2 ∈ first.2.children) ∨ StandsFor packIndex first next

/-- The weight of a node and of all arguments in scope. -/
noncomputable def spotWeight (spot : Spot) : Nat :=
  spot.2.weight + Node.totalWeight spot.1.flatten

section
variable {packIndex : Option Nat} {scopes : Scopes} {index : Nat} {spot first next : Spot}

theorem argumentOnce_standsFor (h : argumentOnce packIndex scopes index = .ok (some next)) :
    StandsFor packIndex (scopes,.templateParam index) next := by
  unfold argumentOnce at h
  split at h
  · cases h
  · split at h
    · cases h
    · rename_i arguments outer argument hargument
      cases hfound : element packIndex index argument with
      | error error =>
        rw [hfound] at h
        cases h
      | ok found =>
        rw [hfound] at h
        cases h
        exact .argument hargument hfound

theorem StandsFor.argumentOnce (h : StandsFor packIndex (scopes,.templateParam index) next) :
    argumentOnce packIndex scopes index = .ok (some next) := by
  cases h with
  | argument hargument hfound =>
    simp only [Printing.argumentOnce,hargument,hfound]
    rfl

/-- Qualifiers lead to what they qualify, parameters to what they stand for. -/
theorem lookOnce_moves (h : Moves (lookOnce packIndex) first next) :
    ComesNext packIndex first next := by
  obtain ⟨scopes,node⟩ := first
  unfold Moves lookOnce at h
  split at h
  · rename_i heq
    cases heq
    cases h
    exact .inl ⟨rfl,by simp [Node.children,Node.fields]⟩
  · rename_i heq
    cases heq
    cases h
    exact .inl ⟨rfl,by simp [Node.children,Node.fields]⟩
  · rename_i heq
    cases heq
    exact .inr (argumentOnce_standsFor h)
  · cases h

theorem target?_child {node inner : Node} (h : target? node = some inner) :
    inner ∈ node.children := by
  unfold target? at h
  split at h <;> cases h <;> simp [Node.children,Node.fields]

theorem descendOnce_moves (h : Moves (descendOnce packIndex) first next) :
    ComesNext packIndex first next := by
  unfold Moves descendOnce at h
  split at h
  · rename_i inner htarget
    cases h
    exact .inl ⟨rfl,target?_child htarget⟩
  · exact lookOnce_moves h

theorem followOnce_moves (h : Moves (followOnce packIndex) first next) :
    ComesNext packIndex first next := by
  obtain ⟨scopes,node⟩ := first
  unfold Moves followOnce at h
  split at h
  · rename_i heq
    cases heq
    cases h
    exact .inl ⟨rfl,by simp [Node.children,Node.fields]⟩
  · rename_i scopes' index heq
    cases heq
    cases hfound : argumentOnce packIndex scopes index with
    | error error =>
      rw [hfound] at h
      cases h
    | ok found =>
      rw [hfound] at h
      obtain ⟨hsome,_⟩ := Option.filter_eq_some_iff.mp (Except.ok.inj h)
      exact .inr (argumentOnce_standsFor (hsome ▸ hfound))
  · cases h

theorem element_weight_le {argument found : Node}
    (h : element packIndex index argument = .ok found) :
    found.weight ≤ argument.weight := by
  unfold element at h
  split at h
  · split at h
    · rename_i hfound
      cases h
      refine Nat.le_of_lt (Node.weight_child_lt ?_)
      simpa [Node.children,Node.fields] using List.mem_of_getElem? hfound
    · cases h
  · cases h
    exact Nat.le_refl _

theorem StandsFor.weight_lt (h : StandsFor packIndex first next) :
    spotWeight next < spotWeight first := by
  cases h with
  | argument hargument hfound =>
    have hle :=
      (element_weight_le hfound).trans (Node.weight_le_totalWeight (List.mem_of_getElem? hargument))
    have hparam := Node.weight_pos (.templateParam ‹Nat›)
    simp only [spotWeight,List.flatten_cons,Node.totalWeight_append]
    omega

/-- Every move is inward, and what is left of the node and its scopes is lighter. -/
theorem ComesNext.inward (h : ComesNext packIndex first next) :
    Inward first next ∧ spotWeight next < spotWeight first := by
  rcases h with hpart | hstands
  · have hlighter := Node.weight_child_lt hpart.2
    refine ⟨.inr hpart,?_⟩
    simp only [spotWeight,hpart.1]
    omega
  · refine ⟨.inl ?_,hstands.weight_lt⟩
    cases hstands
    exact ⟨_,rfl⟩

end

section
variable {packIndex : Option Nat} {once : Spot → Except DemangleError (Option Spot)}

theorem spotWeight_pos (spot : Spot) : 0 < spotWeight spot :=
  Nat.lt_of_lt_of_le spot.2.weight_pos (Nat.le_add_right _ _)

/-- There are fewer moves than the spot that they start from weighs. -/
theorem moves_length_lt
    (honce : ∀ first next, Moves once first next → ComesNext packIndex first next) {first : Spot}
    {spots : List Spot} (h : List.IsChain (Moves once) (first :: spots)) :
    spots.length < spotWeight first := by
  induction spots generalizing first with
  | nil => exact spotWeight_pos first
  | cons next spots ih =>
    obtain ⟨hfirst,hrest⟩ := List.isChain_cons_cons.mp h
    have hlighter := (honce first next hfirst).inward.2
    have hlength := ih hrest
    rw [List.length_cons]
    omega

theorem loopEnds_exists
    (honce : ∀ first next, Moves once first next → ComesNext packIndex first next) (first : Spot) :
    ∃ r, LoopEnds once first r := by
  cases h : once first with
  | error error => exact ⟨_,.fails h⟩
  | ok found =>
    cases found with
    | none => exact ⟨_,.stops h⟩
    | some next =>
      have hlighter := (honce first next h).inward.2
      obtain ⟨r,hr⟩ := loopEnds_exists honce next
      exact ⟨r,.moves h hr⟩
termination_by spotWeight first

theorem LoopEnds.unique {first : Spot} {r r' : Except DemangleError Spot}
    (h : LoopEnds once first r) (h' : LoopEnds once first r') : r' = r := by
  induction h with
  | stops hlast =>
    cases h' with
    | stops => rfl
    | fails hlast' => cases hlast.symm.trans hlast'
    | moves hfirst => cases hlast.symm.trans hfirst
  | fails hlast =>
    cases h' with
    | stops hlast' => cases hlast.symm.trans hlast'
    | fails hlast' =>
      cases hlast.symm.trans hlast'
      rfl
    | moves hfirst => cases hlast.symm.trans hfirst
  | moves hfirst _ ih =>
    cases h' with
    | stops hlast => cases hlast.symm.trans hfirst
    | fails hlast => cases hlast.symm.trans hfirst
    | moves hfirst' hrest =>
      cases hfirst.symm.trans hfirst'
      exact ih hrest

end

/-- A printer that makes `k` steps and comes to `r`, however many more steps there may be. -/
structure Takes {α : Type} (k : Nat) (r : Except DemangleError α)
    (m : Config → Printer α) : Prop where
  within : ∀ config s, s.visits + k ≤ config.outputSizeLimit →
    m config s = ofExcept r ⟨s.output,s.visits + k⟩
  only : ∀ config s a t, m config s = .ok a t → r = .ok a

namespace Takes

variable {α : Type} {k : Nat} {r : Except DemangleError α} {m : Config → Printer α}

theorem ofExcept (r : Except DemangleError α) : Takes 0 r fun _ => Printing.ofExcept r :=
  ⟨fun _ _ _ => rfl,fun _ _ _ _ hrun => (ofExcept_ok hrun).1⟩

theorem step (h : Takes k r m) :
    Takes (k + 1) r (fun config => do
      Printing.step config
      m config) := by
  refine ⟨fun config s hroom => ?_,fun config s a t hrun => ?_⟩
  · have hvisits : ¬s.visits + 1 > config.outputSizeLimit := by omega
    rw [bind_apply,step_apply,if_neg hvisits]
    have hrest := h.within config ⟨s.output,s.visits + 1⟩ (by simp only; omega)
    simp only [Nat.add_assoc,Nat.add_comm 1 k] at hrest ⊢
    exact hrest
  · obtain ⟨_,s',_,hrest⟩ := bind_ok hrun
    exact h.only config s' a t hrest

end Takes

def kindBehind (kind : ReferenceKind) : Node → ReferenceKind
  | .referenceType _ inner => kind.collapse inner
  | _ => kind

section
variable (config : Config) (packIndex : Option Nat)

theorem seenThrough_once (scopes : Scopes) (node : Node) :
    seenThrough packIndex scopes node =
      match lookOnce packIndex (scopes,node) with
      | .error error => .error error
      | .ok none => .ok node
      | .ok (some next) => seenThrough packIndex next.1 next.2 := by
  cases node with
  | qualifiedType inner cv => exact seenThrough_qualifiedType packIndex scopes inner cv
  | vendorQualifiedType inner qualifier arguments =>
    exact seenThrough_vendorQualifiedType packIndex scopes inner qualifier arguments
  | templateParam index =>
    cases scopes with
    | nil => rfl
    | cons arguments outer =>
      rw [seenThrough,lookOnce,argumentOnce]
      simp only [unqualified]
      cases arguments[index]? with
      | none => rfl
      | some argument =>
        dsimp only
        cases element packIndex index argument <;> rfl
  | _ => exact seenThrough_eq (fun _ h => by cases h) packIndex scopes

/-- A step is made for each pointer and reference on the way. -/
theorem hasRightSideIn_once (scopes : Scopes) (node : Node) :
    hasRightSideIn config packIndex scopes node =
      (match descendOnce packIndex (scopes,node) with
      | .error error => fail error
      | .ok none => return isArray node || isFunction node
      | .ok (some next) => do
        if (target? node).isSome then step config
        hasRightSideIn config packIndex next.1 next.2) := by
  cases scopes with
  | nil => cases node <;> rfl
  | cons arguments outer =>
    cases node with
    | templateParam index =>
      simp only [hasRightSideIn,hasRightSideWithin,descendOnce,target?,lookOnce,argumentOnce]
      cases arguments[index]? with
      | none => rfl
      | some argument =>
        dsimp only
        cases element packIndex index argument <;> rfl
    | _ => rfl

theorem collapseIn_once (scopes : Scopes) (kind : ReferenceKind) (node : Node) :
    collapseIn config packIndex scopes kind node = (do
      step config
      match followOnce packIndex (scopes,node) with
      | .error error => fail error
      | .ok none => return ⟨kind,node,scopes⟩
      | .ok (some next) => collapseIn config packIndex next.1 (kindBehind kind node) next.2) := by
  cases scopes with
  | nil => cases node <;> rfl
  | cons arguments outer =>
    cases node with
    | templateParam index =>
      simp only [collapseIn,collapseWithin,followOnce,argumentOnce]
      cases arguments[index]? with
      | none => rfl
      | some argument =>
        dsimp only
        cases element packIndex index argument with
        | error error => rfl
        | ok found => cases found <;> rfl
    | _ => rfl

end

section
variable {packIndex : Option Nat} {first : Spot} {r : Except DemangleError Spot}

theorem LoopEnds.seenThrough (h : LoopEnds (lookOnce packIndex) first r) :
    seenThrough packIndex first.1 first.2 = (·.2) <$> r := by
  induction h with
  | stops hlast => rw [seenThrough_once,hlast]; rfl
  | fails hlast => rw [seenThrough_once,hlast]; rfl
  | moves hfirst _ ih =>
    rw [seenThrough_once,hfirst]
    exact ih

theorem LoopEnds.hasRightSideIn (h : LoopEnds (descendOnce packIndex) first r) :
    ∃ k < spotWeight first, Takes k ((fun last => isArray last.2 || isFunction last.2) <$> r)
      fun config => hasRightSideIn config packIndex first.1 first.2 := by
  induction h with
  | @stops last hlast =>
    refine ⟨0,spotWeight_pos last,?_⟩
    simp only [fun config => hasRightSideIn_once config packIndex last.1 last.2,hlast]
    exact .ofExcept (.ok _)
  | @fails last error hlast =>
    refine ⟨0,spotWeight_pos last,?_⟩
    simp only [fun config => hasRightSideIn_once config packIndex last.1 last.2,hlast]
    exact .ofExcept (.error error)
  | @moves first next r hfirst _ ih =>
    obtain ⟨k,hk,htakes⟩ := ih
    have hlighter := (descendOnce_moves hfirst).inward.2
    simp only [fun config => hasRightSideIn_once config packIndex first.1 first.2,
      show descendOnce packIndex (first.1,first.2) = _ from hfirst]
    cases (target? first.2).isSome with
    | true => exact ⟨k + 1,by omega,htakes.step⟩
    | false => exact ⟨k,by omega,htakes⟩

theorem LoopEnds.collapseIn (h : LoopEnds (followOnce packIndex) first r) (kind : ReferenceKind) :
    ∃ k ≤ spotWeight first, ∃ kind', Takes k ((fun last => ⟨kind',last.2,last.1⟩) <$> r)
      fun config => collapseIn config packIndex first.1 kind first.2 := by
  -- The kind collapses at every move, so it is carried along.
  induction h generalizing kind with
  | @stops last hlast =>
    refine ⟨1,spotWeight_pos last,kind,?_⟩
    simp only [fun config => collapseIn_once config packIndex last.1 kind last.2,hlast]
    exact (Takes.ofExcept (.ok _)).step
  | @fails last error hlast =>
    refine ⟨1,spotWeight_pos last,kind,?_⟩
    simp only [fun config => collapseIn_once config packIndex last.1 kind last.2,hlast]
    exact (Takes.ofExcept (.error error)).step
  | @moves first next r hfirst _ ih =>
    obtain ⟨k,hk,kind',htakes⟩ := ih (kindBehind kind first.2)
    have hlighter := (followOnce_moves hfirst).inward.2
    refine ⟨k + 1,by omega,kind',?_⟩
    simp only [fun config => collapseIn_once config packIndex first.1 kind first.2,
      show followOnce packIndex (first.1,first.2) = _ from hfirst]
    exact htakes.step

end

/-- A loop that goes inward with every iteration, so often at most as what it starts from
weighs, and ends like this. -/
structure Terminates (once : Spot → Except DemangleError (Option Spot)) (first : Spot)
    (r : Except DemangleError Spot) : Prop where
  inward : ∀ spot next, Moves once spot next → Inward spot next
  bound : ∀ spots, List.IsChain (Moves once) (first :: spots) → spots.length < spotWeight first
  ends : LoopEnds once first r

theorem terminates_exists {packIndex : Option Nat}
    {once : Spot → Except DemangleError (Option Spot)}
    (honce : ∀ first next, Moves once first next → ComesNext packIndex first next) (first : Spot) :
    ∃ r, Terminates once first r := by
  obtain ⟨r,hr⟩ := loopEnds_exists honce first
  exact ⟨r,fun spot next h => (honce spot next h).inward.1,fun _ => moves_length_lt honce,hr⟩

/-- Looking through a type ends after finitely many iterations, whatever the arguments in scope are,
and where it ends is what is seen. The search for a right half and the collapsing of references end
as well: they make a number of steps that does not depend on how many are allowed, and come to where
their loops end as soon as that many are. -/
theorem looking_through_ends (packIndex : Option Nat) (scopes : Scopes) (node : Node) :
    (∃ r, Terminates (lookOnce packIndex) (scopes,node) r ∧
      seenThrough packIndex scopes node = (·.2) <$> r) ∧
    (∀ inClosure, ∃ r, Terminates (descendOnce packIndex) (scopes,node) r ∧
      ∃ k ≤ spotWeight (scopes,node),
        Takes k ((fun last => isArray last.2 || isFunction last.2) <$> r)
          fun config => hasRightSide config ⟨scopes,packIndex,inClosure⟩ node) ∧
    ∀ inClosure kind, ∃ r, Terminates (followOnce packIndex) (scopes,node) r ∧
      ∃ k ≤ spotWeight (scopes,node), ∃ kind', Takes k ((fun last => ⟨kind',last.2,last.1⟩) <$> r)
        fun config => collapse config ⟨scopes,packIndex,inClosure⟩ node kind := by
  refine ⟨?_,fun inClosure => ?_,fun inClosure kind => ?_⟩
  · obtain ⟨r,hr⟩ := terminates_exists (@lookOnce_moves packIndex) (scopes,node)
    exact ⟨r,hr,hr.ends.seenThrough⟩
  · obtain ⟨r,hr⟩ := terminates_exists (@descendOnce_moves packIndex) (scopes,node)
    obtain ⟨k,hk,htakes⟩ := hr.ends.hasRightSideIn
    exact ⟨r,hr,k + 1,hk,htakes.step⟩
  · obtain ⟨r,hr⟩ := terminates_exists (@followOnce_moves packIndex) (scopes,node)
    exact ⟨r,hr,hr.ends.collapseIn kind⟩

/-- In scopes where a parameter stands for itself it is looked through once for each of them. -/
theorem looking_through_ends_same_parameter :
    let scopes : Scopes := [[.templateParam 0],[.templateParam 0]]
    List.IsChain (Moves (lookOnce none))
      [(scopes,.templateParam 0),([[.templateParam 0]],.templateParam 0),
        ([],.templateParam 0)] ∧
      seenThrough none scopes (.templateParam 0) = .ok (.templateParam 0) := by
  refine ⟨.cons_cons rfl (.cons_cons rfl (.singleton _)),?_⟩
  obtain ⟨r,hr,hseen⟩ :=
    (looking_through_ends none [[.templateParam 0],[.templateParam 0]] (.templateParam 0)).1
  have hends : LoopEnds (lookOnce none) ([[.templateParam 0],[.templateParam 0]],.templateParam 0)
      (.ok ([],.templateParam 0)) := .moves rfl (.moves rfl (.stops rfl))
  rw [hends.unique hr.ends] at hseen
  exact hseen

end MangledNames.Printing
