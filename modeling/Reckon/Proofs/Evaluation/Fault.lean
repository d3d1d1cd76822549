import Reckon.Proofs.Evaluation.Order
import Reckon.Proofs.Expr.Parts

/-!
# Faults

Only two things can go wrong in the evaluation of a well sorted program: a word is divided by zero,
or something is shifted by a negative count. Evaluation stops at the first node where this happens.

* `BinaryOp.Faults`: the operands on which an operator fails, and how.
* `Expr.Fails`: an expression fails by itself, after its operands.
* `FailsAt`: evaluation comes to a node that fails.
* `Expr.exists_failsAt`, `Program.exists_failsAt`: an evaluation that fails has come to such a node.
* `Expr.stopsWith_of_reached`, `Program.stopsWith_of_reached`: one that comes to such a node stops
  there.
-/

namespace Reckon

/-! ## Operators -/

/-- The operators that fail on some operands, at least in some dialect. -/
def BinaryOp.fallible : List BinaryOp :=
  [.arith .div, .arith .mod, .arithAssign .div, .arithAssign .mod,
    .arith .shiftLeft, .arith .shiftRight, .arithAssign .shiftLeft, .arithAssign .shiftRight]

/-- The operands on which an operator fails, and the cause. A division looks at both operands, a
shift only at the second. -/
inductive BinaryOp.Faults (d : Dialect) : BinaryOp → Value → Value → EvalError → Prop
  | division {op : BinaryOp}
      (hop : op ∈ [.arith .div, .arith .mod, .arithAssign .div, .arithAssign .mod]) (a : Int32) :
      Faults d op (.int a) (.int 0) .divisionByZero
  | shift {op : BinaryOp}
      (hop : op ∈ [.arith .shiftLeft, .arith .shiftRight, .arithAssign .shiftRight] ∨
        op = .arithAssign .shiftLeft ∧ d.shiftLeftAssignAdds = false)
      (x : Value) {b : Int32} (hb : b < 0) :
      Faults d op x (.int b) .negativeShift

section Operators

variable {d : Dialect} {x y : Value} {cause : EvalError}

theorem BinaryOp.Faults.mem_fallible {op : BinaryOp} (h : op.Faults d x y cause) :
    op ∈ fallible := by
  have hdivision : ∀ op ∈ [BinaryOp.arith .div, .arith .mod, .arithAssign .div, .arithAssign .mod],
      op ∈ fallible := by decide
  have hshift : ∀ op ∈ [BinaryOp.arith .shiftLeft, .arith .shiftRight, .arithAssign .shiftRight],
      op ∈ fallible := by decide
  cases h with
  | division hop => exact hdivision op hop
  | shift hop =>
    rcases hop with hop | ⟨rfl, -⟩
    · exact hshift op hop
    · decide

theorem BinaryOp.not_faults {op : BinaryOp} (hop : op ∉ fallible) : ¬ op.Faults d x y cause :=
  fun h => hop h.mem_fallible

theorem ArithOp.fault?_eq_some_iff {op : ArithOp} :
    op.fault? x y = some cause ↔ (BinaryOp.arith op).Faults d x y cause := by
  constructor
  · intro h
    unfold fault? at h
    split at h <;> try split at h
    all_goals cases h
    · rename_i hb
      rw [hb]
      exact .division (by decide) _
    · rename_i hb
      rw [hb]
      exact .division (by decide) _
    · rename_i hb
      exact .shift (.inl (by decide)) _ hb
    · rename_i hb
      exact .shift (.inl (by decide)) _ hb
  · intro h
    cases h with
    | division hop a => cases op <;> simp_all [fault?]
    | shift hop x hb => cases op <;> simp_all [fault?]

theorem ArithOp.apply_error_iff {op : ArithOp} :
    op.apply x y = .error cause ↔ (BinaryOp.arith op).Faults d x y cause := by
  rw [← fault?_eq_some_iff]
  unfold ArithOp.apply
  cases op.fault? x y with
  | none => exact iff_of_false (fun h => by cases h) (fun h => by cases h)
  | some e => simp only [Except.error.injEq, Option.some.injEq]

/-- A compound assignment fails where its operator does, unless it stands for another one. -/
theorem BinaryOp.faults_arithAssign_iff {op : ArithOp}
    (hop : ¬(op = .shiftLeft ∧ d.shiftLeftAssignAdds = true)) :
    (BinaryOp.arithAssign op).Faults d x y cause ↔ (BinaryOp.arith op).Faults d x y cause := by
  constructor
  · intro h
    cases h with
    | division hmem a => exact .division (by cases op <;> simp_all) a
    | shift hmem x hb => exact .shift (.inl (by cases op <;> simp_all)) x hb
  · intro h
    cases h with
    | division hmem a => exact .division (by cases op <;> simp_all) a
    | shift hmem x hb => exact .shift (by cases op <;> simp_all) x hb

/-- **Operators that combine values** fail on the operands that `Faults` lists. -/
theorem BinaryOp.apply_error_iff {op : BinaryOp} (hop : op.isAssign = false) :
    op.apply d x y = .error cause ↔ op.Faults d x y cause := by
  cases op with
  | arith op => exact ArithOp.apply_error_iff
  | order | equal | notEqual | logic =>
    exact iff_of_false (fun h => by cases h) (not_faults (by simp [fallible]))
  | assign | arithAssign | logicAssign => cases hop

/-- **Assignments** fail on the operands that `Faults` lists. -/
theorem Dialect.update_error_iff {op : BinaryOp} (hop : op.isAssign = true) :
    d.update op x y = .error cause ↔ op.Faults d x y cause := by
  cases op with
  | assign =>
    exact iff_of_false (fun h => by cases h) (BinaryOp.not_faults (by simp [BinaryOp.fallible]))
  | arithAssign op =>
    by_cases hadds : op = .shiftLeft ∧ d.shiftLeftAssignAdds = true
    · -- here `<<=` adds, and additions do not fail
      obtain ⟨rfl, hadds⟩ := hadds
      have hupdate : d.update (.arithAssign .shiftLeft) x y = ArithOp.add.apply x y := by
        simp [update, updateOp, hadds, BinaryOp.apply]
      rw [hupdate]
      refine iff_of_false (fun h => by cases h) fun h => ?_
      cases h with
      | division hmem => simp at hmem
      | shift hmem => simp [hadds] at hmem
    · have hupdate : d.update (.arithAssign op) x y = op.apply x y := by
        simp [update, updateOp, hadds, BinaryOp.apply, BinaryOp.base]
      rw [hupdate, BinaryOp.faults_arithAssign_iff hadds]
      exact ArithOp.apply_error_iff
  | logicAssign op =>
    exact iff_of_false (fun h => by cases h) (BinaryOp.not_faults (by simp [BinaryOp.fallible]))
  | arith | order | equal | notEqual | logic => cases hop

end Operators

/-! ## Expressions that fail -/

/-- An expression whose operands have values in `env` fails by itself. It leaves the environment
that its operands leave. -/
inductive Expr.Fails (d : Dialect) (env : Env) : Expr → EvalError → Env → Prop
  | binary {l : Location} {ty : Ty} {op : BinaryOp} {a b : Expr} {x y : Value} {cause : EvalError}
      (ha : (a.eval d env).result = .ok x) (hb : (b.eval d (a.eval d env).env).result = .ok y)
      (hop : op.Faults d x y cause) :
      Fails d env (.binary l ty op a b) cause (b.eval d (a.eval d env).env).env
  | assign {l l' : Location} {ty ty' : Ty} {op : BinaryOp} {z : String} {v : Expr} {y : Value}
      {cause : EvalError} (hv : (v.eval d env).result = .ok y)
      (hop : op.Faults d (Env.value env z) y cause) :
      Fails d env (.assign l ty op (.var l' ty' z) v) cause (v.eval d env).env

/-- The operator of an operator node, also of an assignment. -/
def Expr.op? : Expr → Option BinaryOp
  | binary _ _ op _ _ | assign _ _ op _ _ => some op
  | _ => none

/-- Evaluation comes to the node `n`, which fails with `err` and leaves `env'`. -/
def FailsAt (d : Dialect) (reached : Arrivals) (n : TreeNode) (err : Located EvalError)
    (env' : Env) : Prop :=
  ∃ env, reached n.place = some (n.expr, env) ∧ n.expr.Fails d env err.cause env' ∧
    err.loc = n.expr.loc

theorem FailsAt.below {d : Dialect} {reached reached' : Arrivals} {n : TreeNode}
    {err : Located EvalError} {env' : Env} (h : FailsAt d reached n err env') {t : Turn}
    (hreached : ∀ π, reached' (t :: π) = reached π) : FailsAt d reached' (n.below t) err env' := by
  obtain ⟨env, hn, hfails, hloc⟩ := h
  exact ⟨env, (hreached n.place).trans hn, hfails, hloc⟩

/-! ## Evaluations that stop -/

/-- An evaluation stops with an error and leaves an environment. -/
def Run.StopsWith {α : Type} (r : Run α) (err : Located EvalError) (env : Env) : Prop :=
  r.result = .error err ∧ r.env = env

section Stops

variable {α β : Type} {r : Run α} {f : α → Env → Run β} {err : Located EvalError} {env : Env}

theorem Run.StopsWith.andThen (h : r.StopsWith err env) : (r.andThen f).StopsWith err env := by
  obtain ⟨hresult, henv⟩ := h
  simp only [StopsWith, Run.andThen, hresult, henv, and_self]

theorem Run.StopsWith.of_ok {a : α} (hr : r.result = .ok a) (h : (f a r.env).StopsWith err env) :
    (r.andThen f).StopsWith err env := by
  simp only [StopsWith, Run.andThen, hr] at h ⊢
  exact h

theorem Run.stopsWith_located {loc : Location} {cause : EvalError} :
    (Run.located env loc (.error cause) : Run α).StopsWith ⟨loc, cause⟩ env :=
  ⟨rfl, rfl⟩

theorem Run.andThen_error (h : (r.andThen f).result = .error err) :
    r.result = .error err ∨ ∃ a, r.result = .ok a ∧ (f a r.env).result = .error err := by
  unfold Run.andThen at h
  cases hr : r.result with
  | error e =>
    simp only [hr] at h
    cases h
    exact .inl rfl
  | ok a =>
    simp only [hr] at h
    exact .inr ⟨a, rfl, h⟩

theorem Run.located_error {loc : Location} {o : Except EvalError α}
    (h : (Run.located env loc o).result = .error err) : o = .error err.cause ∧ err.loc = loc := by
  cases o with
  | error e => cases h; exact ⟨rfl, rfl⟩
  | ok a => cases h

end Stops

variable {d : Dialect} {env env' : Env} {err : Located EvalError}

/-- A node that fails is where its own evaluation stops. -/
theorem Expr.Fails.stopsWith {e : Expr} {cause : EvalError} (h : e.Fails d env cause env')
    (hsorted : e.WellSorted) : (e.eval d env).StopsWith ⟨e.loc, cause⟩ env' := by
  cases h with
  | binary ha hb hop =>
    have happly := (BinaryOp.apply_error_iff hsorted.1).2 hop
    simp only [eval]
    refine .of_ok ha (.of_ok hb ?_)
    rw [happly]
    exact Run.stopsWith_located
  | assign hv hop =>
    have hupdate := (Dialect.update_error_iff hsorted.1).2 hop
    simp only [eval]
    refine .of_ok hv (.andThen ?_)
    rw [hupdate]
    exact Run.stopsWith_located

/-- **Evaluation stops at a node that fails.** -/
theorem Expr.stopsWith_of_reached {e x : Expr} {π : Place} {env₁ : Env} {cause : EvalError}
    (hsorted : e.WellSorted) (hx : e.reached d env π = some (x, env₁))
    (hfails : x.Fails d env₁ cause env') : (e.eval d env).StopsWith ⟨x.loc, cause⟩ env' := by
  fun_induction Expr.reached d env e π with
  | case1 => cases hx; exact hfails.stopsWith hsorted
  | case2 env l ty op e π ih => exact (ih hsorted hx).andThen
  | case3 env l ty op a b π ih => exact (ih hsorted.2.1 hx).andThen
  | case4 env l ty op a b π ih =>
    obtain ⟨env₂, hnext, hb⟩ := Option.bind_eq_some_iff.1 hx
    obtain ⟨rfl, v, ha⟩ := Run.next?_eq_some hnext
    exact .of_ok ha (ih _ hsorted.2.2 hb).andThen
  | case5 env l ty op l' ty' z v π ih => exact (ih hsorted.2.2 hx).andThen
  | case6 env l e π ih => exact (ih hsorted hx).andThen
  | case7 => cases hx

/-- **An evaluation that fails has come to a node that fails.** -/
theorem Expr.exists_failsAt {e : Expr} (hsorted : e.WellSorted)
    (h : (e.eval d env).result = .error err) :
    ∃ n env', FailsAt d (e.reached d env) n err env' := by
  induction e generalizing env with
  | int | bool | var => cases h
  | unary l ty op e ih =>
    rcases Run.andThen_error h with he | ⟨_, _, ⟨⟩⟩
    obtain ⟨n, env', hn⟩ := ih hsorted he
    exact ⟨n.below .first, env', hn.below fun _ => rfl⟩
  | binary l ty op a b iha ihb =>
    rcases Run.andThen_error h with ha | ⟨x, ha, h⟩
    · obtain ⟨n, env', hn⟩ := iha hsorted.2.1 ha
      exact ⟨n.below .first, env', hn.below fun _ => rfl⟩
    · rcases Run.andThen_error h with hb | ⟨y, hb, h⟩
      · obtain ⟨n, env', hn⟩ := ihb hsorted.2.2 hb
        exact ⟨n.below .second, env', hn.below (reached_second ha)⟩
      · obtain ⟨happly, hloc⟩ := Run.located_error h
        have hop := (BinaryOp.apply_error_iff hsorted.1).1 happly
        exact ⟨⟨[], binary l ty op a b⟩, _, env, rfl, .binary ha hb hop, hloc⟩
  | assign l ty op target v _ ih =>
    cases target with
    | var l' ty' z =>
      rcases Run.andThen_error h with hv | ⟨y, hv, h⟩
      · obtain ⟨n, env', hn⟩ := ih hsorted.2.2 hv
        exact ⟨n.below .second, env', hn.below fun _ => rfl⟩
      · rcases Run.andThen_error h with h | ⟨_, _, ⟨⟩⟩
        obtain ⟨hupdate, hloc⟩ := Run.located_error h
        have hop := (Dialect.update_error_iff hsorted.1).1 hupdate
        exact ⟨⟨[], assign l ty op (var l' ty' z) v⟩, _, env, rfl, .assign hv hop, hloc⟩
    | _ => cases h
  | print l e ih =>
    rcases Run.andThen_error h with he | ⟨_, _, ⟨⟩⟩
    obtain ⟨n, env', hn⟩ := ih hsorted he
    exact ⟨n.below .first, env', hn.below fun _ => rfl⟩

/-! ## Programs that fail -/

theorem Program.stopsWith_of_reached {p : Program} {x : Expr} {π : Place} {env₁ : Env}
    {cause : EvalError} (hsorted : ∀ e ∈ p, e.WellSorted)
    (hx : Program.reached d env p π = some (x, env₁)) (hfails : x.Fails d env₁ cause env')
    (last : Value) : (Program.evalFrom d last env p).StopsWith ⟨x.loc, cause⟩ env' := by
  fun_induction Program.reached d env p π generalizing last with
  | case1 env e p π =>
    exact (Expr.stopsWith_of_reached (hsorted e List.mem_cons_self) hx hfails).andThen
  | case2 env e p π ih =>
    obtain ⟨env₂, hnext, hp⟩ := Option.bind_eq_some_iff.1 hx
    obtain ⟨rfl, v, he⟩ := Run.next?_eq_some hnext
    exact .of_ok he (ih _ (fun e' h' => hsorted e' (List.mem_cons_of_mem e h')) hp v)
  | case3 => cases hx

theorem Program.exists_failsAt {p : Program} (hsorted : ∀ e ∈ p, e.WellSorted) {last : Value}
    (h : (Program.evalFrom d last env p).result = .error err) :
    ∃ n env', FailsAt d (Program.reached d env p) n err env' := by
  induction p generalizing env last with
  | nil => cases h
  | cons e p ih =>
    rcases Run.andThen_error h with he | ⟨v, he, hp⟩
    · obtain ⟨n, env', hn⟩ := e.exists_failsAt (hsorted e List.mem_cons_self) he
      exact ⟨n.below .first, env', hn.below fun _ => rfl⟩
    · obtain ⟨n, env', hn⟩ := ih (fun e' h' => hsorted e' (List.mem_cons_of_mem e h')) hp
      exact ⟨n.below .second, env', hn.below (Program.reached_second he)⟩

end Reckon
