import Reckon.Evaluation

/-!
# Evaluations

Evaluations in a row, and what an evaluation that yields a value has done, for each form of
expression: which parts it has evaluated in which environments, and what it leaves.

* `Run.andThen_assoc`: three evaluations in a row.
* `Run.andThen_ok`: both parts of an evaluation in two parts succeed.
* `Expr.eval_unary_ok`, `Expr.eval_binary_ok`, `Expr.eval_assign_ok`, `Expr.eval_print_ok`: the
  forms of expressions that have parts.
-/

namespace Reckon

theorem Run.yield_andThen {α β : Type} (env : Env) (a : α) (f : α → Env → Run β) :
    (Run.yield env a).andThen f = f a env := rfl

theorem Run.andThen_assoc {α β γ : Type} (r : Run α) (f : α → Env → Run β) (g : β → Env → Run γ) :
    (r.andThen f).andThen g = r.andThen fun a env => (f a env).andThen g := by
  obtain ⟨result, env, printed⟩ := r
  cases result with
  | error e => rfl
  | ok a =>
    simp only [andThen]
    cases (f a env).result with
    | error e => rfl
    | ok b => simp only [List.append_assoc]

theorem Run.andThen_ok {α β : Type} {r : Run α} {f : α → Env → Run β} {b : β}
    (h : (r.andThen f).result = .ok b) :
    ∃ a, r.result = .ok a ∧ (f a r.env).result = .ok b ∧ (r.andThen f).env = (f a r.env).env := by
  unfold Run.andThen at h ⊢
  cases hr : r.result with
  | error e => rw [hr] at h; cases h
  | ok a => rw [hr] at h; exact ⟨a, rfl, h, rfl⟩

theorem Run.located_ok {α : Type} {env : Env} {loc : Location} {o : Except EvalError α} {a : α}
    (h : (Run.located env loc o).result = .ok a) :
    o = .ok a ∧ (Run.located env loc o).env = env := by
  cases o with
  | error e => cases h
  | ok b => cases h; exact ⟨rfl, rfl⟩

namespace Expr

variable {d : Dialect} {env : Env} {v : Value} {l l' : Location} {ty ty' : Ty}

theorem eval_unary_ok {op : UnaryOp} {e : Expr}
    (h : ((unary l ty op e).eval d env).result = .ok v) :
    ∃ w, (e.eval d env).result = .ok w ∧ v = op.apply w ∧
      ((unary l ty op e).eval d env).env = (e.eval d env).env := by
  obtain ⟨w, hw, hv, henv⟩ := Run.andThen_ok h
  cases hv
  exact ⟨w, hw, rfl, henv⟩

theorem eval_binary_ok {op : BinaryOp} {a b : Expr}
    (h : ((binary l ty op a b).eval d env).result = .ok v) :
    ∃ x y, (a.eval d env).result = .ok x ∧ (b.eval d (a.eval d env).env).result = .ok y ∧
      op.apply d x y = .ok v ∧
      ((binary l ty op a b).eval d env).env = (b.eval d (a.eval d env).env).env := by
  obtain ⟨x, hx, h₁, henv₁⟩ := Run.andThen_ok h
  obtain ⟨y, hy, h₂, henv₂⟩ := Run.andThen_ok h₁
  obtain ⟨hv, henv₃⟩ := Run.located_ok h₂
  exact ⟨x, y, hx, hy, hv, henv₁.trans (henv₂.trans henv₃)⟩

/-- The old value of the target is read before the right side is evaluated, and the new one is bound
after it. -/
theorem eval_assign_ok {op : BinaryOp} {x : String} {e : Expr}
    (h : ((assign l ty op (var l' ty' x) e).eval d env).result = .ok v) :
    ∃ w, (e.eval d env).result = .ok w ∧ d.update op (Env.value env x) w = .ok v ∧
      ((assign l ty op (var l' ty' x) e).eval d env).env = (e.eval d env).env.save x v := by
  obtain ⟨w, hw, h₁, henv₁⟩ := Run.andThen_ok h
  obtain ⟨u, hu, h₂, henv₂⟩ := Run.andThen_ok h₁
  obtain ⟨hv, henv₃⟩ := Run.located_ok hu
  cases h₂
  refine ⟨w, hw, hv, henv₁.trans (henv₂.trans ?_)⟩
  rw [henv₃]
  rfl

theorem eval_print_ok {e : Expr} (h : ((print l e).eval d env).result = .ok v) :
    ∃ w, (e.eval d env).result = .ok w ∧ v = .unit ∧
      ((print l e).eval d env).env = (e.eval d env).env := by
  obtain ⟨w, hw, hv, henv⟩ := Run.andThen_ok h
  cases hv
  exact ⟨w, hw, rfl, henv⟩

end Expr

theorem Program.evalFrom_cons_ok {d : Dialect} {env : Env} {last v : Value} {e : Expr} {p : Program}
    (h : (Program.evalFrom d last env (e :: p)).result = .ok v) :
    ∃ w, (e.eval d env).result = .ok w ∧
      (Program.evalFrom d w (e.eval d env).env p).result = .ok v ∧
      (Program.evalFrom d last env (e :: p)).env =
        (Program.evalFrom d w (e.eval d env).env p).env :=
  Run.andThen_ok h

end Reckon
