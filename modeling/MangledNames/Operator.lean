set_option autoImplicit false

/-!
The operators that have a two-letter code, with their spelling and the way an expression uses them.
-/

namespace MangledNames

abbrev Code := Char × Char

def Code.text (code : Code) : String := String.ofList [code.1, code.2]

/-- How an operator takes its operands. A `postfixOp` operator has a prefix form too,
which expressions mark with a trailing `_`. -/
inductive OperatorKind where
  | prefixOp
  | postfixOp
  | binary
  | conditional
  | call
  | index
  | member
  | new
  | delete
  deriving DecidableEq, Repr

inductive Operator where
  | new | newArray | delete | deleteArray
  | coAwait | unaryPlus | unaryMinus | addressOf | dereference | complement | not
  | plus | minus | times | divide | modulo | bitAnd | bitOr | bitXor
  | assign | plusAssign | minusAssign | timesAssign | divideAssign | moduloAssign
  | bitAndAssign | bitOrAssign | bitXorAssign
  | shiftLeft | shiftRight | shiftLeftAssign | shiftRightAssign
  | equal | notEqual | less | greater | lessEqual | greaterEqual | spaceship
  | and | or | comma | memberPointer
  | increment | decrement
  | arrow | call | index | conditional
  deriving DecidableEq, Repr

namespace Operator

def code : Operator → Code
  | new => ('n', 'w') | newArray => ('n', 'a')
  | delete => ('d', 'l') | deleteArray => ('d', 'a')
  | coAwait => ('a', 'w')
  | unaryPlus => ('p', 's') | unaryMinus => ('n', 'g')
  | addressOf => ('a', 'd') | dereference => ('d', 'e')
  | complement => ('c', 'o') | not => ('n', 't')
  | plus => ('p', 'l') | minus => ('m', 'i') | times => ('m', 'l')
  | divide => ('d', 'v') | modulo => ('r', 'm')
  | bitAnd => ('a', 'n') | bitOr => ('o', 'r') | bitXor => ('e', 'o')
  | assign => ('a', 'S')
  | plusAssign => ('p', 'L') | minusAssign => ('m', 'I') | timesAssign => ('m', 'L')
  | divideAssign => ('d', 'V') | moduloAssign => ('r', 'M')
  | bitAndAssign => ('a', 'N') | bitOrAssign => ('o', 'R') | bitXorAssign => ('e', 'O')
  | shiftLeft => ('l', 's') | shiftRight => ('r', 's')
  | shiftLeftAssign => ('l', 'S') | shiftRightAssign => ('r', 'S')
  | equal => ('e', 'q') | notEqual => ('n', 'e')
  | less => ('l', 't') | greater => ('g', 't')
  | lessEqual => ('l', 'e') | greaterEqual => ('g', 'e')
  | spaceship => ('s', 's')
  | and => ('a', 'a') | or => ('o', 'o')
  | comma => ('c', 'm') | memberPointer => ('p', 'm')
  | increment => ('p', 'p') | decrement => ('m', 'm')
  | arrow => ('p', 't') | call => ('c', 'l') | index => ('i', 'x')
  | conditional => ('q', 'u')

def symbol : Operator → String
  | new => "new" | newArray => "new[]"
  | delete => "delete" | deleteArray => "delete[]"
  | coAwait => "co_await"
  | unaryPlus => "+" | unaryMinus => "-"
  | addressOf => "&" | dereference => "*"
  | complement => "~" | not => "!"
  | plus => "+" | minus => "-" | times => "*"
  | divide => "/" | modulo => "%"
  | bitAnd => "&" | bitOr => "|" | bitXor => "^"
  | assign => "="
  | plusAssign => "+=" | minusAssign => "-=" | timesAssign => "*="
  | divideAssign => "/=" | moduloAssign => "%="
  | bitAndAssign => "&=" | bitOrAssign => "|=" | bitXorAssign => "^="
  | shiftLeft => "<<" | shiftRight => ">>"
  | shiftLeftAssign => "<<=" | shiftRightAssign => ">>="
  | equal => "==" | notEqual => "!="
  | less => "<" | greater => ">"
  | lessEqual => "<=" | greaterEqual => ">="
  | spaceship => "<=>"
  | and => "&&" | or => "||"
  | comma => "," | memberPointer => "->*"
  | increment => "++" | decrement => "--"
  | arrow => "->" | call => "()" | index => "[]"
  | conditional => "?"

def kind : Operator → OperatorKind
  | new | newArray => .new
  | delete | deleteArray => .delete
  | coAwait | unaryPlus | unaryMinus | addressOf | dereference | complement | not => .prefixOp
  | increment | decrement => .postfixOp
  | arrow => .member
  | call => .call
  | index => .index
  | conditional => .conditional
  | _ => .binary

def isWord : Operator → Bool
  | new | newArray | delete | deleteArray | coAwait => true
  | _ => false

def all : List Operator :=
  [new, newArray, delete, deleteArray,
   coAwait, unaryPlus, unaryMinus, addressOf, dereference, complement, not,
   plus, minus, times, divide, modulo, bitAnd, bitOr, bitXor,
   assign, plusAssign, minusAssign, timesAssign, divideAssign, moduloAssign,
   bitAndAssign, bitOrAssign, bitXorAssign,
   shiftLeft, shiftRight, shiftLeftAssign, shiftRightAssign,
   equal, notEqual, less, greater, lessEqual, greaterEqual, spaceship,
   and, or, comma, memberPointer,
   increment, decrement,
   arrow, call, index, conditional]

def ofCode? (code : Code) : Option Operator := all.find? (·.code == code)

theorem ofCode?_code (o : Operator) : ofCode? o.code = some o := by cases o <;> rfl

theorem code_of_ofCode? {code : Code} {o : Operator} (h : ofCode? code = some o) :
    o.code = code := by
  simpa using List.find?_some h

end Operator

end MangledNames
