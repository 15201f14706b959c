set_option autoImplicit false

/-!
Qualifiers of types and of member functions: cv qualifiers and reference signs.
-/

namespace MangledNames

structure CvQualifiers where
  restrict : Bool := false
  volatile : Bool := false
  const : Bool := false
  deriving DecidableEq, Repr

namespace CvQualifiers

def none : CvQualifiers := {}

def isEmpty (cv : CvQualifiers) : Bool := !cv.restrict && !cv.volatile && !cv.const

def union (a b : CvQualifiers) : CvQualifiers :=
  ⟨a.restrict || b.restrict, a.volatile || b.volatile, a.const || b.const⟩

@[simp] theorem union_none (a : CvQualifiers) : a.union none = a := by
  cases a; simp [union,none]

@[simp] theorem none_union (a : CvQualifiers) : none.union a = a := by
  cases a; simp [union,none]

theorem isEmpty_iff (cv : CvQualifiers) : cv.isEmpty = true ↔ cv = none := by
  rcases cv with ⟨_ | _, _ | _, _ | _⟩ <;> simp [isEmpty,none]

end CvQualifiers

inductive ReferenceKind where
  | lvalue
  | rvalue
  deriving DecidableEq, Repr

/-- A reference to a reference keeps the single sign if either has it. -/
def ReferenceKind.collapse : ReferenceKind → ReferenceKind → ReferenceKind
  | .rvalue, .rvalue => .rvalue
  | _, _ => .lvalue

def ReferenceKind.sign : ReferenceKind → String
  | .lvalue => "&"
  | .rvalue => "&&"

end MangledNames
