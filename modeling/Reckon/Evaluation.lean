import Reckon.Scope
import Reckon.Value

/-!
# Evaluation

Operands are evaluated from left to right, all of them: no operator leaves one out. A compound
assignment reads the old value of its target before its right side is evaluated. An assignment binds
its target at the innermost level, and one whose target is no variable does nothing. Names that are
not bound have the value `unit`.

* `Run`: what an evaluation yields, the environment it leaves and what it has printed.
* `Expr.eval`, `Program.eval`: the value of an expression, and of the last expression of a program.
-/

namespace Reckon

/-- What names are bound to. -/
abbrev Env := Table Value

/-- An evaluation: a value or the first error, the environment after it, and the values printed on
the way, in order. -/
structure Run (α : Type) where
  result : Except (Located EvalError) α
  env : Env
  printed : List Value

namespace Run

variable {α β : Type}

/-- Goes on after a successful evaluation. -/
def andThen (r : Run α) (f : α → Env → Run β) : Run β :=
  match r.result with
  | .error e => ⟨.error e, r.env, r.printed⟩
  | .ok a =>
    let s := f a r.env
    ⟨s.result, s.env, r.printed ++ s.printed⟩

/-- Yields a value and does nothing else. -/
def yield (env : Env) (a : α) : Run α := ⟨.ok a, env, []⟩

/-- Reports the outcome of an operator at a location. -/
def located (env : Env) (loc : Location) : Except EvalError α → Run α
  | .error e => ⟨.error ⟨loc, e⟩, env, []⟩
  | .ok a => ⟨.ok a, env, []⟩

end Run

/-- The environment with the two truth values. -/
def Env.standard : Env :=
  (Table.empty.saveOuter "true" (.bool true)).saveOuter "false" (.bool false)

/-- The value of a name. -/
def Env.value (env : Env) (name : String) : Value := (Table.get? env name).getD .unit

/-- The value that an assignment gives to its target. -/
def Dialect.update (d : Dialect) (op : BinaryOp) (old new : Value) : Except EvalError Value :=
  if op = .assign then .ok new else (d.updateOp op).apply d old new

/-- Evaluates an expression. -/
def Expr.eval (d : Dialect) (env : Env) : Expr → Run Value
  | .int _ n => .yield env (.int n)
  | .bool _ b => .yield env (.bool b)
  | .var _ _ name => .yield env (Env.value env name)
  | .unary _ _ op operand => (operand.eval d env).andThen fun v env => .yield env (op.apply v)
  | .binary loc _ op left right =>
    (left.eval d env).andThen fun x env =>
      (right.eval d env).andThen fun y env => .located env loc (op.apply d x y)
  | .assign loc _ op (.var _ _ name) value =>
    (value.eval d env).andThen fun new env' =>
      (Run.located env' loc (d.update op (Env.value env name) new)).andThen fun v env' =>
        .yield (env'.save name v) v
  | .assign _ _ _ _ _ => .yield env .unit
  | .print _ operand => (operand.eval d env).andThen fun v env => ⟨.ok .unit, env, [v]⟩

/-- Evaluates the expressions of a program in turn; the value is that of the last one, or `last` if
there is none. -/
def Program.evalFrom (d : Dialect) (last : Value) (env : Env) : Program → Run Value
  | [] => .yield env last
  | e :: rest => (e.eval d env).andThen fun v env => Program.evalFrom d v env rest

/-- Evaluates a program. -/
def Program.eval (d : Dialect) (env : Env) (p : Program) : Run Value :=
  Program.evalFrom d .unit env p

end Reckon
