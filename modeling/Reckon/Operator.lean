/-!
# Operators

The operators of the language. A binary operator either combines two values (arithmetic on words,
comparison, equality, logic) or assigns: plainly, or by first combining the old value with the new
one.

* `UnaryOp`, `BinaryOp`: the operators, with their spelling and the name they are declared under.
* `BinaryOp.isAssign`, `BinaryOp.base`: which operators assign, and what a compound form combines
  with.
* `UnaryOp.all`, `BinaryOp.all`: the operators in the order of their codes.
-/

namespace Reckon

/-- The operators with one operand. -/
inductive UnaryOp
  | plus | minus | bitNot | logicNot
deriving DecidableEq, Repr

/-- The operators that take two words to a word. -/
inductive ArithOp
  | add | sub | mul | div | mod | bitAnd | bitOr | bitXor | shiftLeft | shiftRight
deriving DecidableEq, Repr

/-- The operators that compare by size. -/
inductive OrderOp
  | lt | le | gt | ge
deriving DecidableEq, Repr

/-- The operators that combine two truth values. -/
inductive LogicOp
  | and | or
deriving DecidableEq, Repr

/-- The operators with two operands. -/
inductive BinaryOp
  | arith (op : ArithOp)
  | order (op : OrderOp)
  | equal
  | notEqual
  | logic (op : LogicOp)
  | assign
  | arithAssign (op : ArithOp)
  | logicAssign (op : LogicOp)
deriving DecidableEq, Repr

namespace UnaryOp

/-- The operators in the order of their codes. -/
def all : List UnaryOp := [.plus, .minus, .bitNot, .logicNot]

theorem mem_all (op : UnaryOp) : op ∈ all := by
  cases op <;> decide

/-- The name an operator is declared under. -/
def name : UnaryOp → String
  | plus => "unary_plus"
  | minus => "unary_minus"
  | bitNot => "bitwise_not"
  | logicNot => "logical_not"

/-- How an operator is written. -/
def spelling : UnaryOp → String
  | plus => "+"
  | minus => "-"
  | bitNot => "~"
  | logicNot => "!"

end UnaryOp

namespace BinaryOp

/-- The operators in the order of their codes. -/
def all : List BinaryOp :=
  [
    .arith .add, .arith .sub, .arith .mul, .arith .div, .arith .mod, .arith .bitAnd, .arith .bitOr,
    .arith .bitXor, .arith .shiftLeft, .arith .shiftRight, .order .lt, .order .le, .order .gt,
    .order .ge, .equal, .notEqual, .logic .and, .logic .or, .assign, .arithAssign .add,
    .arithAssign .sub, .arithAssign .mul, .arithAssign .div, .arithAssign .mod,
    .arithAssign .bitAnd, .arithAssign .bitOr, .arithAssign .bitXor, .arithAssign .shiftLeft,
    .arithAssign .shiftRight, .logicAssign .and, .logicAssign .or
  ]

theorem mem_all (op : BinaryOp) : op ∈ all := by
  cases op with
  | arith op | arithAssign op => cases op <;> decide
  | order op => cases op <;> decide
  | logic op | logicAssign op => cases op <;> decide
  | equal | notEqual | assign => decide

/-- The name an operator is declared under. -/
def name : BinaryOp → String
  | arith .add => "add"
  | arith .sub => "sub"
  | arith .mul => "mul"
  | arith .div => "div"
  | arith .mod => "mod"
  | arith .bitAnd => "bitwise_and"
  | arith .bitOr => "bitwise_or"
  | arith .bitXor => "bitwise_xor"
  | arith .shiftLeft => "left_shift"
  | arith .shiftRight => "right_shift"
  | order .lt => "less_than"
  | order .le => "less_than_or_equal"
  | order .gt => "greater_than"
  | order .ge => "greater_than_or_equal"
  | equal => "equal"
  | notEqual => "not_equal"
  | logic .and => "logical_and"
  | logic .or => "logical_or"
  | assign => "assign"
  | arithAssign .add => "add_assign"
  | arithAssign .sub => "sub_assign"
  | arithAssign .mul => "mul_assign"
  | arithAssign .div => "div_assign"
  | arithAssign .mod => "mod_assign"
  | arithAssign .bitAnd => "bitwise_and_assign"
  | arithAssign .bitOr => "bitwise_or_assign"
  | arithAssign .bitXor => "bitwise_xor_assign"
  | arithAssign .shiftLeft => "left_shift_assign"
  | arithAssign .shiftRight => "right_shift_assign"
  | logicAssign .and => "logical_and_assign"
  | logicAssign .or => "logical_or_assign"

/-- The characters of an operator. -/
def symbol : BinaryOp → List Char
  | arith .add => ['+']
  | arith .sub => ['-']
  | arith .mul => ['*']
  | arith .div => ['/']
  | arith .mod => ['%']
  | arith .bitAnd => ['&']
  | arith .bitOr => ['|']
  | arith .bitXor => ['^']
  | arith .shiftLeft => ['<', '<']
  | arith .shiftRight => ['>', '>']
  | order .lt => ['<']
  | order .le => ['<', '=']
  | order .gt => ['>']
  | order .ge => ['>', '=']
  | equal => ['=', '=']
  | notEqual => ['!', '=']
  | logic .and => ['&', '&']
  | logic .or => ['|', '|']
  | assign => ['=']
  | arithAssign .add => ['+', '=']
  | arithAssign .sub => ['-', '=']
  | arithAssign .mul => ['*', '=']
  | arithAssign .div => ['/', '=']
  | arithAssign .mod => ['%', '=']
  | arithAssign .bitAnd => ['&', '=']
  | arithAssign .bitOr => ['|', '=']
  | arithAssign .bitXor => ['^', '=']
  | arithAssign .shiftLeft => ['<', '<', '=']
  | arithAssign .shiftRight => ['>', '>', '=']
  | logicAssign .and => ['&', '&', '=']
  | logicAssign .or => ['|', '|', '=']

/-- How an operator is written. -/
def spelling (op : BinaryOp) : String := String.ofList op.symbol

/-- Plain assignment and its compound forms. -/
def isAssign : BinaryOp → Bool
  | assign | arithAssign _ | logicAssign _ => true
  | _ => false

/-- The operator that a compound assignment combines with; the others are their own base. -/
def base : BinaryOp → BinaryOp
  | arithAssign op => arith op
  | logicAssign op => logic op
  | op => op

end BinaryOp

end Reckon
