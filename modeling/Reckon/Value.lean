import Reckon.Binary64
import Reckon.Expr.Printer

/-!
# Values

What expressions evaluate to: nothing, a truth value, a signed word of 32 bits, or a double
precision number. Operators give nothing on operands that they are not made for.

* `UnaryOp.apply`: the unary operators.
* `ArithOp.fault?`, `ArithOp.word`: when a word operator fails, and its result on words.
* `BinaryOp.apply`: the binary operators that combine values, in a dialect.
-/

namespace Reckon

/-- Values. `unit` is the value of `print` and of names that are not bound. -/
inductive Value
  | unit
  | bool (b : Bool)
  | int (n : Int32)
  | float (x : Binary64)
deriving DecidableEq, Repr

/-- The rules for two operators that a session can choose. -/
structure Dialect where
  /-- `!=` gives what `==` gives. -/
  notEqualIsEqual : Bool
  /-- `<<=` adds instead of shifting. -/
  shiftLeftAssignAdds : Bool
deriving DecidableEq, Repr

/-- Why an operator fails on two values. -/
inductive EvalError
  | divisionByZero
  | negativeShift
  | unknownOperator (op : BinaryOp)
deriving DecidableEq, Repr

/-- The wording of an evaluation error. -/
def EvalError.message : EvalError → String
  | divisionByZero => "integer division by zero"
  | negativeShift => "negative shift count"
  | unknownOperator op => "unknown binary operator " ++ op.spelling

namespace Value

/-- How a value is written. -/
def text : Value → String
  | unit => "()"
  | bool b => String.ofList (boolChars b)
  | int n => String.ofList (wordChars n)
  | float x => x.text

/-- Equality of values: the same kind of value and equal contents. -/
def same : Value → Value → Bool
  | unit, unit => true
  | bool a, bool b => a == b
  | int a, int b => a == b
  | float x, float y => x.same y
  | _, _ => false

/-- The order of two words or of two double precision numbers. -/
def compare? : Value → Value → Option Ordering
  | int a, int b => some (compare a.toInt b.toInt)
  | float x, float y => x.compare? y
  | _, _ => none

/-- The result of an operator on words, given for two words only. -/
def onWords (f : Int32 → Int32 → Int32) : Value → Value → Value
  | int a, int b => int (f a b)
  | _, _ => unit

/-- The result of an operator on truth values, given for two truth values only. -/
def onBools (f : Bool → Bool → Bool) : Value → Value → Value
  | bool a, bool b => bool (f a b)
  | _, _ => unit

/-- Flips the bits of a word or the truth of a truth value. -/
def complement : Value → Value
  | int n => int (~~~n)
  | bool b => bool !b
  | _ => unit

/-- The negative of a word. -/
def negate : Value → Value
  | int n => int (-n)
  | _ => unit

end Value

/-- The value of a unary operator. -/
def UnaryOp.apply : UnaryOp → Value → Value
  | plus, v => v
  | minus, v => v.negate
  | bitNot, v | logicNot, v => v.complement

namespace ArithOp

/-- The result of an operator on two words, modulo `2 ^ 32`. Quotients are cut off toward zero, a
remainder has the sign of the dividend, and shifts by 32 places or more move every bit out. -/
def word : ArithOp → Int32 → Int32 → Int32
  | add, a, b => a + b
  | sub, a, b => a - b
  | mul, a, b => a * b
  | div, a, b => a / b
  | mod, a, b => a % b
  | bitAnd, a, b => a &&& b
  | bitOr, a, b => a ||| b
  | bitXor, a, b => a ^^^ b
  | shiftLeft, a, b => if b < 32 then a <<< b else 0
  | shiftRight, a, b => if b < 32 then a >>> b else a >>> 31

/-- When an operator fails: a word divided by zero, and a shift by a negative count, whatever is
shifted. -/
def fault? : ArithOp → Value → Value → Option EvalError
  | div, .int _, .int b | mod, .int _, .int b => if b = 0 then some .divisionByZero else none
  | shiftLeft, _, .int b | shiftRight, _, .int b => if b < 0 then some .negativeShift else none
  | _, _, _ => none

/-- The value of a word operator. -/
def apply (op : ArithOp) (x y : Value) : Except EvalError Value :=
  match op.fault? x y with
  | some e => .error e
  | none => .ok (.onWords op.word x y)

end ArithOp

/-- Whether a comparison holds between operands in a given order. -/
def OrderOp.holds : OrderOp → Ordering → Bool
  | lt, o => o.isLT
  | le, o => o.isLE
  | gt, o => o.isGT
  | ge, o => o.isGE

/-- The value of a comparison. -/
def OrderOp.apply (op : OrderOp) (x y : Value) : Value :=
  match x.compare? y with
  | some o => .bool (op.holds o)
  | none => .unit

/-- The result of a logical operator on two truth values. -/
def LogicOp.combine : LogicOp → Bool → Bool → Bool
  | and, a, b => a && b
  | or, a, b => a || b

/-- The value of a binary operator. Assignments do not combine values. -/
def BinaryOp.apply (d : Dialect) (op : BinaryOp) (x y : Value) : Except EvalError Value :=
  match op with
  | arith op => op.apply x y
  | order op => .ok (op.apply x y)
  | equal => .ok (.bool (x.same y))
  | notEqual => .ok (.bool (if d.notEqualIsEqual then x.same y else !x.same y))
  | logic op => .ok (.onBools op.combine x y)
  | assign | arithAssign _ | logicAssign _ => .error (.unknownOperator op)

/-- The operator that a compound assignment combines the old and the new value with. -/
def Dialect.updateOp (d : Dialect) (op : BinaryOp) : BinaryOp :=
  if op = .arithAssign .shiftLeft ∧ d.shiftLeftAssignAdds then .arith .add else op.base

end Reckon
