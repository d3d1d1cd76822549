import Reckon.Location
import Reckon.Operator

/-!
# Expressions

The trees of the language and the types that checking attaches to them. A program is a list of
expressions in source order.

* `Ty`: the type of an expression; `unknown` until it is checked.
* `Expr`: literals, variables, operators, assignments and `print`.
* `Expr.ty`: the type attached to an expression; `print` has the type of what it prints.
-/

namespace Reckon

/-- Types. `any` stands only in the signatures of operators that take operands of every type. -/
inductive Ty
  | unknown | int | bool | any
deriving DecidableEq, Repr

namespace Ty

/-- The types in the order of their codes. -/
def all : List Ty := [.unknown, .int, .bool, .any]

/-- The name of a type. -/
def name : Ty → String
  | unknown => "Unknown"
  | int => "Int"
  | bool => "Bool"
  | any => "Any"

/-- The type with a name. -/
def ofName? (name : String) : Option Ty := all.find? fun t => t.name == name

/-- The name of the type with a code, or the code itself where there is no such type. -/
def nameOfCode (code : Int) : String :=
  let found := if code < 0 then none else all[code.toNat]?
  match found with
  | some t => t.name
  | none => "Type(" ++ toString code ++ ")"

end Ty

/-- Expressions. Every node has a location; variables and operators also have the type that checking
attaches. Any expression may stand as the target of an assignment until it is checked. -/
inductive Expr
  | int (loc : Location) (value : Int32)
  | bool (loc : Location) (value : Bool)
  | var (loc : Location) (ty : Ty) (name : String)
  | unary (loc : Location) (ty : Ty) (op : UnaryOp) (operand : Expr)
  | binary (loc : Location) (ty : Ty) (op : BinaryOp) (left right : Expr)
  | assign (loc : Location) (ty : Ty) (op : BinaryOp) (target value : Expr)
  | print (loc : Location) (operand : Expr)
deriving DecidableEq, Repr

/-- A program: expressions in source order. -/
abbrev Program := List Expr

namespace Expr

/-- Where an expression is reported. -/
def loc : Expr → Location
  | int l _ | bool l _ | var l _ _ | unary l _ _ _ | binary l _ _ _ _ | assign l _ _ _ _
  | print l _ => l

/-- The type attached to an expression. -/
def ty : Expr → Ty
  | int _ _ => .int
  | bool _ _ => .bool
  | var _ t _ | unary _ t _ _ | binary _ t _ _ _ | assign _ t _ _ _ => t
  | print _ e => e.ty

end Expr

end Reckon
