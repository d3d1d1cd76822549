import Reckon.Proofs.Evaluation.Fault

/-!
# What depends on the dialect

A dialect is read at two operators only. Where two dialects agree on every operator that an
expression contains, they evaluate it alike: the value or the error, the environment and what is
printed are the same.

* `Expr.operators`: the operators of an expression, those of assignments included.
* `Dialect.AgreesOn`: two dialects have the same rule for an operator.
* `BinaryOp.apply_agree`, `Dialect.update_agree`: an operator in dialects that agree on it.
* `Expr.eval_agree`, `Program.evalFrom_agree`: evaluation in dialects that agree on all operators.
-/

namespace Reckon

/-- The operators in an expression, also in the targets of assignments. -/
def Expr.operators (e : Expr) : List BinaryOp := e.parts.filterMap Expr.op?

namespace Expr

variable {l : Location} {ty : Ty} {a b e : Expr}

@[simp] theorem operators_unary {op : UnaryOp} :
    (unary l ty op e).operators = e.operators := rfl

@[simp] theorem operators_binary {op : BinaryOp} :
    (binary l ty op a b).operators = op :: (a.operators ++ b.operators) := by
  simp [operators, parts, op?]

@[simp] theorem operators_assign {op : BinaryOp} :
    (assign l ty op a b).operators = op :: (a.operators ++ b.operators) := by
  simp [operators, parts, op?]

@[simp] theorem operators_print : (print l e).operators = e.operators := rfl

end Expr

/-- Two dialects have the same rule for the operator `op`. -/
structure Dialect.AgreesOn (d d' : Dialect) (op : BinaryOp) : Prop where
  notEqual : op = .notEqual → d.notEqualIsEqual = d'.notEqualIsEqual
  shiftLeft : op = .arithAssign .shiftLeft → d.shiftLeftAssignAdds = d'.shiftLeftAssignAdds

variable {d d' : Dialect}

/-- Only `!=` asks for the dialect when it combines values. -/
theorem BinaryOp.apply_agree {op : BinaryOp}
    (h : op = .notEqual → d.notEqualIsEqual = d'.notEqualIsEqual) (x y : Value) :
    op.apply d x y = op.apply d' x y := by
  cases op with
  | notEqual => simp only [BinaryOp.apply, h rfl]
  | _ => rfl

/-- No compound assignment combines with `!=`. -/
theorem Dialect.eq_notEqual_of_updateOp {op : BinaryOp} (h : d.updateOp op = .notEqual) :
    op = .notEqual := by
  unfold Dialect.updateOp at h
  split at h
  · cases h
  · cases op with
    | notEqual => rfl
    | _ => cases h

theorem Dialect.updateOp_agree {op : BinaryOp} (h : d.AgreesOn d' op) :
    d.updateOp op = d'.updateOp op := by
  unfold Dialect.updateOp
  by_cases hop : op = .arithAssign .shiftLeft
  · simp only [h.shiftLeft hop]
  · simp only [hop, false_and]

theorem Dialect.update_agree {op : BinaryOp} (h : d.AgreesOn d' op) (old new : Value) :
    d.update op old new = d'.update op old new := by
  have hbase : d'.updateOp op = .notEqual → d.notEqualIsEqual = d'.notEqualIsEqual :=
    fun hne => h.notEqual (eq_notEqual_of_updateOp hne)
  unfold Dialect.update
  rw [updateOp_agree h, BinaryOp.apply_agree hbase]

/-- **Expressions** are evaluated alike in dialects that agree on their operators. -/
theorem Expr.eval_agree {e : Expr} (h : ∀ op ∈ e.operators, d.AgreesOn d' op) (env : Env) :
    e.eval d env = e.eval d' env := by
  induction e generalizing env with
  | int | bool | var => rfl
  | unary l ty op e ih => simp only [eval, ih h]
  | binary l ty op a b iha ihb =>
    simp only [operators_binary, List.mem_cons, List.mem_append] at h
    have ha := iha fun op hop => h op (.inr (.inl hop))
    have hb := ihb fun op hop => h op (.inr (.inr hop))
    simp only [eval, ha, hb, BinaryOp.apply_agree (h op (.inl rfl)).notEqual]
  | assign l ty op target v _ ih =>
    simp only [operators_assign, List.mem_cons, List.mem_append] at h
    have hv := ih fun op hop => h op (.inr (.inr hop))
    cases target with
    | var l' ty' x => simp only [eval, hv, Dialect.update_agree (h op (.inl rfl))]
    | _ => rfl
  | print l e ih => simp only [eval, ih h]

/-- **Programs** are, too. -/
theorem Program.evalFrom_agree {p : Program} (h : ∀ e ∈ p, ∀ op ∈ e.operators, d.AgreesOn d' op)
    (last : Value) (env : Env) :
    Program.evalFrom d last env p = Program.evalFrom d' last env p := by
  induction p generalizing last env with
  | nil => rfl
  | cons e p ih =>
    have he := Expr.eval_agree (h e List.mem_cons_self)
    have hp := ih fun e' he' => h e' (List.mem_cons_of_mem e he')
    simp only [Program.evalFrom, he, hp]

end Reckon
