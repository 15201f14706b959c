import MangledNames.Printing.Halves
set_option autoImplicit false

/-!
What is printed of a function, part by part in the order of the text.
-/

namespace MangledNames.Printing

def unlessOmitted (omitted : Bool) (m : Printer Unit) : Printer Unit :=
  if omitted then pure () else m

def shownReturn (config : Config) (signature : Signature Node) : Option Node :=
  if config.omitReturnType then none else signature.returnType

def beforeName (config : Config) (h : Halves) (place : Place) : Option Node → Printer Unit
  | none => pure ()
  | some type => do
    h.left place type
    unless ← hasRightSide config place type do write " "

def parameterList (h : Halves) (place : Place) (parameters : List Node) : Printer Unit := do
  write "("
  h.printList place parameters
  write ")"

def newType (h : Halves) (place : Place) (type : Node) (initializer : Option (List Node)) :
    Printer Unit := do
  write " "
  h.print place type
  if let some initializer := initializer then parameterList h place initializer

def behindName (h : Halves) (place : Place) : Option Node → Printer Unit
  | none => pure ()
  | some type => h.right place type

def memberQualifiers (cv : CvQualifiers) (ref : Option ReferenceKind) : Printer Unit := do
  cvQualifiers cv
  refQualifier ref

/-- The parts of a function: its name stands between what its return type comes to, its parameters
and qualifiers behind that. -/
theorem function_parts (config : Config) (h : Halves) (place : Place) (name : Node)
    (s : Signature Node) :
    function config h place name s = (do
      beforeName config h place (shownReturn config s)
      h.print place name
      unlessOmitted config.omitParameterList (parameterList h place s.parameters)
      behindName h place (shownReturn config s)
      unlessOmitted config.omitParameterList (memberQualifiers s.cv s.ref)) := by
  unfold function shownReturn
  generalize (if config.omitReturnType then none else s.returnType) = returnType
  cases config.omitParameterList <;> cases returnType <;>
    simp [unlessOmitted,beforeName,behindName,parameterList,memberQualifiers,bind_assoc]
  all_goals
    refine bind_congr fun _ => bind_congr fun right => ?_
    cases right <;> simp

theorem functionTypeRight_parts (h : Halves) (place : Place) (f : FunctionType Node) :
    functionTypeRight h place f = (do
      parameterList h place f.parameters
      h.right place f.returnType
      memberQualifiers f.cv f.ref
      exceptionSpec h place f.exceptionSpec
      if f.transactionSafe then write " transaction_safe") := by
  simp [functionTypeRight,parameterList,memberQualifiers,bind_assoc]

end MangledNames.Printing
