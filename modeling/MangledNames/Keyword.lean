import MangledNames.Operator
set_option autoImplicit false

/-!
Keywords that a code of the grammar stands for.
-/

namespace MangledNames

inductive ElaboratedKeyword where
  | struct
  | union
  | enum
  deriving DecidableEq, Repr

namespace ElaboratedKeyword

def ofLetter? : Char → Option ElaboratedKeyword
  | 's' => some struct
  | 'u' => some union
  | 'e' => some enum
  | _ => none

def text : ElaboratedKeyword → String
  | struct => "struct"
  | union => "union"
  | enum => "enum"

end ElaboratedKeyword

inductive CastKeyword where
  | dynamicCast
  | staticCast
  | constCast
  | reinterpretCast
  deriving DecidableEq, Repr

namespace CastKeyword

def ofCode? : Code → Option CastKeyword
  | ('d', 'c') => some dynamicCast
  | ('s', 'c') => some staticCast
  | ('c', 'c') => some constCast
  | ('r', 'c') => some reinterpretCast
  | _ => none

def text : CastKeyword → String
  | dynamicCast => "dynamic_cast"
  | staticCast => "static_cast"
  | constCast => "const_cast"
  | reinterpretCast => "reinterpret_cast"

end CastKeyword

inductive TypeOperator where
  | sizeof
  | alignof
  | typeid
  deriving DecidableEq, Repr

namespace TypeOperator

def ofCode? : Code → Option TypeOperator
  | ('s', 't') => some sizeof
  | ('a', 't') => some alignof
  | ('t', 'i') => some typeid
  | _ => none

def text : TypeOperator → String
  | sizeof => "sizeof"
  | alignof => "alignof"
  | typeid => "typeid"

end TypeOperator

/-- Operators that look at an expression without evaluating it. -/
inductive ExpressionOperator where
  | sizeof
  | alignof
  | typeid
  | noexcept
  deriving DecidableEq, Repr

namespace ExpressionOperator

def ofCode? : Code → Option ExpressionOperator
  | ('s', 'z') => some sizeof
  | ('a', 'z') => some alignof
  | ('t', 'e') => some typeid
  | ('n', 'x') => some noexcept
  | _ => none

def text : ExpressionOperator → String
  | sizeof => "sizeof"
  | alignof => "alignof"
  | typeid => "typeid"
  | noexcept => "noexcept"

end ExpressionOperator

inductive MemberAccess where
  | dot
  | arrow
  | dotStar
  deriving DecidableEq, Repr

def MemberAccess.text : MemberAccess → String
  | .dot => "."
  | .arrow => "->"
  | .dotStar => ".*"

end MangledNames
