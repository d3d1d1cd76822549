import Reckon.Expr
import Reckon.Scope

/-!
# Declarations

What a name can be declared as: a variable with a type, a constant, or an operator with a signature.
Operators are declared under their names, so a table can redeclare them.

* `UnaryOp.sig`, `BinaryOp.sig`: the standard signatures.
* `Decl.standard`: the table with the two truth values and all operators.
* `Table.unarySig`, `Table.binarySig`: the signature of an operator in a table.
-/

namespace Reckon

/-- The types of a unary operator. -/
structure UnarySig where
  operand : Ty
  result : Ty
deriving DecidableEq, Repr

/-- The types of a binary operator. -/
structure BinarySig where
  left : Ty
  right : Ty
  result : Ty
deriving DecidableEq, Repr

/-- What a name is declared as. -/
inductive Decl
  | var (ty : Ty)
  | const (value : Bool)
  | unary (sig : UnarySig)
  | binary (sig : BinarySig)
deriving DecidableEq, Repr

/-- How a declaration is written. -/
def Decl.text : Decl → String
  | var ty => "var " ++ ty.name
  | const value => "const " ++ (if value then "true" else "false")
  | unary sig => "(" ++ sig.operand.name ++ ") -> " ++ sig.result.name
  | binary sig => "(" ++ sig.left.name ++ ", " ++ sig.right.name ++ ") -> " ++ sig.result.name

/-- The standard signature of a unary operator. -/
def UnaryOp.sig : UnaryOp → UnarySig
  | plus | minus | bitNot => ⟨.int, .int⟩
  | logicNot => ⟨.bool, .bool⟩

/-- The standard signature of a binary operator. A compound assignment has that of its base. -/
def BinaryOp.sig : BinaryOp → BinarySig
  | arith _ | arithAssign _ => ⟨.int, .int, .int⟩
  | order _ => ⟨.int, .int, .bool⟩
  | equal | notEqual => ⟨.any, .any, .bool⟩
  | logic _ | logicAssign _ => ⟨.bool, .bool, .bool⟩
  | assign => ⟨.any, .any, .any⟩

theorem BinaryOp.sig_base (op : BinaryOp) : op.base.sig = op.sig := by
  cases op <;> rfl

/-- The names that are declared from the start, and what they are declared as. -/
def Decl.standardEntries : List (String × Decl) :=
  [("true", .const true), ("false", .const false)]
    ++ UnaryOp.all.map (fun op => (op.name, .unary op.sig))
    ++ BinaryOp.all.map (fun op => (op.name, .binary op.sig))

/-- The table with the standard declarations. -/
def Decl.standard : Table Decl :=
  Decl.standardEntries.foldl (fun t e => t.saveOuter e.1 e.2) .empty

namespace Table

/-- The signature of a unary operator: what its name is declared as, if that is a unary operator,
and else the standard one. -/
def unarySig (t : Table Decl) (op : UnaryOp) : UnarySig :=
  match t.get? op.name with
  | some (.unary sig) => sig
  | _ => op.sig

/-- The signature of a binary operator: what its name is declared as, if that is a binary operator,
and else the standard one. -/
def binarySig (t : Table Decl) (op : BinaryOp) : BinarySig :=
  match t.get? op.name with
  | some (.binary sig) => sig
  | _ => op.sig

end Table

end Reckon
