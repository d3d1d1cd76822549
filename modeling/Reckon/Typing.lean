import Reckon.Declaration

/-!
# Checking

Checking walks over an expression from left to right, the value of an assignment before its target.
It attaches a type to every node that it gets through, declares a variable at the innermost level
when it is first assigned, and stops at the first error. What it has attached and declared by then
stays.

* `Expr.check`: an expression, its type, and the table after it.
* `Program.check`: the expressions of a program in turn.
-/

namespace Reckon

/-- Why checking stops. -/
inductive CheckError
  | unknownName (name : String)
  | operatorName (name : String)
  | unaryOperand (op : UnaryOp) (actual expected : Ty)
  | differentOperands (op : BinaryOp) (left right : Ty)
  | leftOperand (op : BinaryOp) (actual expected : Ty)
  | rightOperand (op : BinaryOp) (actual expected : Ty)
  | targetNotVariable (op : BinaryOp)
  | builtinTarget (name : String)
  | retyped (assigned : Ty) (name : String) (declared : Ty)
deriving DecidableEq, Repr

/-- The wording of a checking error. -/
def CheckError.message : CheckError → String
  | unknownName name => "unknown identifier " ++ name
  | operatorName name => name ++ " names a built-in operator, not a variable"
  | unaryOperand op actual expected =>
    "operand of unary " ++ op.spelling ++ " has type " ++ actual.name ++ ", expected "
      ++ expected.name
  | differentOperands op left right =>
    "operands of " ++ op.spelling ++ " have different types: " ++ left.name ++ " and " ++ right.name
  | leftOperand op actual expected =>
    "left operand of " ++ op.spelling ++ " has type " ++ actual.name ++ ", expected "
      ++ expected.name
  | rightOperand op actual expected =>
    "right operand of " ++ op.spelling ++ " has type " ++ actual.name ++ ", expected "
      ++ expected.name
  | targetNotVariable op => "left side of " ++ op.spelling ++ " must be a variable"
  | builtinTarget name => "cannot assign to built-in " ++ name
  | retyped assigned name declared =>
    "cannot assign " ++ assigned.name ++ " to " ++ name ++ " of type " ++ declared.name

/-- The outcome of checking: a result or the first error, the tree with the types attached so far,
and the table with the variables declared so far. -/
structure Checked (τ α : Type) where
  result : Except (Located CheckError) τ
  tree : α
  table : Table Decl

/-! ## Single nodes -/

/-- The type of a name that is read. -/
def nameType (t : Table Decl) (loc : Location) (name : String) : Except (Located CheckError) Ty :=
  match t.get? name with
  | some (.var ty) => .ok ty
  | some (.const _) => .ok .bool
  | some (.unary _) | some (.binary _) => .error ⟨loc, .operatorName name⟩
  | none => .error ⟨loc, .unknownName name⟩

/-- Compares the operands of a binary operator with its signature and yields its result type. An
operator for operands of every type needs two of the same. -/
def BinarySig.apply (sig : BinarySig) (loc : Location) (op : BinaryOp) (left right : Ty) :
    Except (Located CheckError) Ty :=
  if sig.left = .any ∧ sig.right = .any then
    if left = right then .ok sig.result else .error ⟨loc, .differentOperands op left right⟩
  else if left ≠ sig.left then .error ⟨loc, .leftOperand op left sig.left⟩
  else if right ≠ sig.right then .error ⟨loc, .rightOperand op right sig.right⟩
  else .ok sig.result

/-- Compares the operand of a unary operator with its signature and yields its result type. -/
def UnarySig.apply (sig : UnarySig) (loc : Location) (op : UnaryOp) (operand : Ty) :
    Except (Located CheckError) Ty :=
  if operand = sig.operand then .ok sig.result
  else .error ⟨loc, .unaryOperand op operand sig.operand⟩

/-- What an assignment settles: the type of its target, its own type, and the table after it. -/
structure Assignment where
  target : Ty
  ty : Ty
  table : Table Decl

/-- Assigns a value of type `value` to a target. A plain assignment declares a name that is not
declared yet; a compound one needs a declared variable. -/
def assignTo (t : Table Decl) (loc : Location) (op : BinaryOp) (target : Expr) (value : Ty) :
    Except (Located CheckError) Assignment :=
  match target with
  | .var nameLoc _ name =>
    match t.get? name with
    | some (.var ty) =>
      if op = .assign then
        if ty = value then .ok ⟨ty, ty, t⟩ else .error ⟨loc, .retyped value name ty⟩
      else
        match (t.binarySig op).apply loc op ty value with
        | .error e => .error e
        | .ok result => .ok ⟨ty, result, t⟩
    | some _ => .error ⟨nameLoc, .builtinTarget name⟩
    | none =>
      if op = .assign then .ok ⟨value, value, t.save name (.var value)⟩
      else .error ⟨nameLoc, .unknownName name⟩
  | _ => .error ⟨target.loc, .targetNotVariable op⟩

/-- Attaches a type to a variable. -/
def Expr.retype (ty : Ty) : Expr → Expr
  | .var loc _ name => .var loc ty name
  | e => e

/-! ## Expressions and programs -/

/-- Checks an expression. -/
def Expr.check (t : Table Decl) : Expr → Checked Ty Expr
  | .int loc n => ⟨.ok .int, .int loc n, t⟩
  | .bool loc b => ⟨.ok .bool, .bool loc b, t⟩
  | .var loc ty name =>
    match nameType t loc name with
    | .error e => ⟨.error e, .var loc ty name, t⟩
    | .ok found => ⟨.ok found, .var loc found name, t⟩
  | .unary loc ty op operand =>
    let a := operand.check t
    match a.result with
    | .error e => ⟨.error e, .unary loc ty op a.tree, a.table⟩
    | .ok operandTy =>
      match (a.table.unarySig op).apply loc op operandTy with
      | .error e => ⟨.error e, .unary loc ty op a.tree, a.table⟩
      | .ok result => ⟨.ok result, .unary loc result op a.tree, a.table⟩
  | .binary loc ty op left right =>
    let a := left.check t
    match a.result with
    | .error e => ⟨.error e, .binary loc ty op a.tree right, a.table⟩
    | .ok leftTy =>
      let b := right.check a.table
      match b.result with
      | .error e => ⟨.error e, .binary loc ty op a.tree b.tree, b.table⟩
      | .ok rightTy =>
        match (b.table.binarySig op).apply loc op leftTy rightTy with
        | .error e => ⟨.error e, .binary loc ty op a.tree b.tree, b.table⟩
        | .ok result => ⟨.ok result, .binary loc result op a.tree b.tree, b.table⟩
  | .assign loc ty op target value =>
    let b := value.check t
    match b.result with
    | .error e => ⟨.error e, .assign loc ty op target b.tree, b.table⟩
    | .ok valueTy =>
      match assignTo b.table loc op target valueTy with
      | .error e => ⟨.error e, .assign loc ty op target b.tree, b.table⟩
      | .ok a => ⟨.ok a.ty, .assign loc a.ty op (target.retype a.target) b.tree, a.table⟩
  | .print loc operand =>
    let a := operand.check t
    ⟨a.result, .print loc a.tree, a.table⟩

/-- Checks the expressions of a program in turn. -/
def Program.check (t : Table Decl) : Program → Checked Unit Program
  | [] => ⟨.ok (), [], t⟩
  | e :: rest =>
    let a := e.check t
    match a.result with
    | .error err => ⟨.error err, a.tree :: rest, a.table⟩
    | .ok _ =>
      let b := Program.check a.table rest
      ⟨b.result, a.tree :: b.tree, b.table⟩

end Reckon
