import Reckon.Expr.Parser

/-!
# Precedence

How tight the operators of the language bind, as a table of its own. Nothing in it refers to the
parser, which has these numbers in several places: the powers of tokens, the thresholds for operands
and the groupings.

* `PrefixOp`, `Token.Kind.prefixOp?`: the operators that stand in front of an operand.
* `Precedence`, `Precedence.reach`: powers, groupings, and the thresholds that follow from them.
* `Precedence.standard`: the table of the language.
* `Grouping.precedence`: the table that the parser goes by.
* `Grouping.precedence_standard`: with the standard grouping, it is the table of the language.
-/

namespace Reckon

open Token (Kind)

/-! ## Operators in front of an operand -/

/-- What can stand in front of an operand. -/
inductive PrefixOp
  | print
  | unary (op : UnaryOp)
deriving DecidableEq, Repr

namespace PrefixOp

/-- The threshold at which the parser reads the operand. -/
def threshold : PrefixOp → Int
  | print => Kind.leastPower
  | unary op => op.threshold

/-- The expression with a given operand. -/
def node (loc : Location) (operand : Expr) : PrefixOp → Expr
  | print => .print loc operand
  | unary op => .unary loc .unknown op operand

end PrefixOp

/-- What a kind of token can stand in front of an operand as. -/
def Token.Kind.prefixOp? : Kind → Option PrefixOp
  | .print => some .print
  | .binary (.arith .add) => some (.unary .plus)
  | .binary (.arith .sub) => some (.unary .minus)
  | .bitNot => some (.unary .bitNot)
  | .logicNot => some (.unary .logicNot)
  | _ => none

/-- The parser takes the same tokens for operators in front of an operand. -/
theorem Token.Kind.prefixOp?_eq {k : Kind} (h : k ≠ .print) :
    k.prefixOp? = k.unaryOp?.map .unary := by
  cases k with
  | print => exact absurd rfl h
  | binary op =>
    have hall : ∀ op ∈ BinaryOp.all,
        (Kind.binary op).prefixOp? = (Kind.binary op).unaryOp?.map .unary := by decide
    exact hall op op.mem_all
  | _ => rfl

/-! ## Tables -/

/-- How operators bind. -/
structure Precedence where
  /-- How tight a token binds to the expression in front of it. -/
  power : Kind → Int
  /-- Which operators between operands group to the right. -/
  rightward : BinaryOp → Bool
  /-- How tight an operator in front of an operand holds it: what follows in the operand binds
  tighter. -/
  prefixReach : PrefixOp → Int

namespace Precedence

/-- How tight an operator between operands holds the right one. Those that group to the right leave
to it what binds as tight as they do. -/
def reach (c : Precedence) (op : BinaryOp) : Int :=
  if c.rightward op then c.power (.binary op) - 1 else c.power (.binary op)

/-- The language. The two negations bind to an expression in front of them although nothing joins
them to it; the tokens at `-1` do not. A minus and `print` take all that follows. -/
def standard : Precedence where
  power
    | .bitNot | .logicNot => 120
    | .binary (.arith .mul) | .binary (.arith .div) | .binary (.arith .mod) => 110
    | .binary (.arith .add) | .binary (.arith .sub) => 100
    | .binary (.arith .shiftLeft) | .binary (.arith .shiftRight) => 90
    | .binary (.order .lt) | .binary (.order .le) => 80
    | .binary (.order .gt) | .binary (.order .ge) => 80
    | .binary .equal | .binary .notEqual => 70
    | .binary (.arith .bitAnd) => 60
    | .binary (.arith .bitXor) => 50
    | .binary (.arith .bitOr) => 40
    | .binary (.logic .and) => 30
    | .binary (.logic .or) => 20
    | .binary .assign | .binary (.arithAssign _) | .binary (.logicAssign _) => 10
    | .eof | .integer | .identifier | .print | .bool _ | .leftParen | .rightParen | .other _ => -1
  rightward
    | .arith .mul | .assign | .arithAssign _ | .logicAssign _ => true
    | _ => false
  prefixReach
    | .print | .unary .minus => -1
    | .unary .plus | .unary .bitNot | .unary .logicNot => 120

end Precedence

/-! ## The table of the parser -/

namespace Grouping

/-- The powers, the groupings and the thresholds that the parser goes by. -/
def precedence (g : Grouping) : Precedence where
  power := Kind.power
  rightward op := g.rightward (.binary op)
  prefixReach := PrefixOp.threshold

@[simp] theorem precedence_power (g : Grouping) (k : Kind) : g.precedence.power k = k.power := rfl

end Grouping

theorem Token.Kind.power_eq_standard (k : Kind) : k.power = Precedence.standard.power k := by
  cases k with
  | binary op =>
    have hall : ∀ op ∈ BinaryOp.all,
        (Kind.binary op).power = Precedence.standard.power (.binary op) := by decide
    exact hall op op.mem_all
  | _ => rfl

theorem Grouping.standard_rightward (op : BinaryOp) :
    standard.rightward (.binary op) = Precedence.standard.rightward op := by
  have hall : ∀ op ∈ BinaryOp.all,
      standard.rightward (.binary op) = Precedence.standard.rightward op := by decide
  exact hall op op.mem_all

theorem PrefixOp.threshold_eq_standard (op : PrefixOp) :
    op.threshold = Precedence.standard.prefixReach op := by
  cases op with
  | print => rfl
  | unary op => cases op <;> rfl

/-- **The parser goes by the table of the language.** -/
theorem Grouping.precedence_standard : standard.precedence = .standard := by
  have hpower : Kind.power = Precedence.standard.power := funext Kind.power_eq_standard
  have hrightward : (fun op => standard.rightward (.binary op)) = Precedence.standard.rightward :=
    funext standard_rightward
  have hreach : PrefixOp.threshold = Precedence.standard.prefixReach :=
    funext PrefixOp.threshold_eq_standard
  rw [precedence, hpower, hrightward, hreach]

end Reckon
