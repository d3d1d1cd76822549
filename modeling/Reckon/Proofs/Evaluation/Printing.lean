import Mathlib.Data.List.Forall2
import Reckon.Proofs.Evaluation.Fault

/-!
# What evaluation prints

An evaluation prints at every `print` once, in post-order, up to the node where it stops. What a
`print` shows is the value that its operand has when evaluation comes to it. This needs targets that
are variables: nothing in an assignment to anything else is evaluated.

* `Shows`: evaluation comes to a `print` node, whose operand has a value there.
* `Prints`: the `print` nodes among some nodes show some values, in order.
* `PrintsUpTo`: those before a node do, and those after it show nothing.
* `Expr.prints_of_ok`, `Program.prints_of_ok`: an evaluation that succeeds.
* `Expr.printsUpTo_of_reached`, `Program.printsUpTo_of_reached`: one that comes to a node that
  fails.
-/

namespace Reckon

/-! ## Nodes that print -/

/-- A node is a `print`. -/
def TreeNode.isPrint (n : TreeNode) : Bool :=
  match n.expr with
  | .print _ _ => true
  | _ => false

section Prints

variable {d : Dialect} {reached reached' : Arrivals} {n : TreeNode} {v : Value}
  {ns ms : List TreeNode} {vs us : List Value} {t : Turn}

/-- Evaluation comes to the `print` node `n`, whose operand then has the value `v`. -/
def Shows (d : Dialect) (reached : Arrivals) (n : TreeNode) (v : Value) : Prop :=
  ∃ l operand env, n.expr = .print l operand ∧ reached n.place = some (n.expr, env) ∧
    (operand.eval d env).result = .ok v

/-- The `print` nodes among `ns` show the values `vs`, one each and in order. -/
def Prints (d : Dialect) (reached : Arrivals) (ns : List TreeNode) (vs : List Value) : Prop :=
  List.Forall₂ (Shows d reached) (ns.filter TreeNode.isPrint) vs

/-- The `print` nodes before `n` show the values `vs`, and none after it shows anything. -/
def PrintsUpTo (d : Dialect) (reached : Arrivals) (ns : List TreeNode) (n : TreeNode)
    (vs : List Value) : Prop :=
  ∃ before after, ns = before ++ n :: after ∧ Prints d reached before vs ∧
    ∀ m ∈ after, ∀ v, ¬Shows d reached m v

theorem Shows.below_iff (hreached : ∀ π, reached' (t :: π) = reached π) :
    Shows d reached' (n.below t) v ↔ Shows d reached n v := by
  simp only [Shows, TreeNode.below, hreached]

theorem Prints.append (hn : Prints d reached ns vs) (hm : Prints d reached ms us) :
    Prints d reached (ns ++ ms) (vs ++ us) := by
  unfold Prints
  rw [List.filter_append]
  exact List.rel_append hn hm

theorem Prints.below (h : Prints d reached ns vs) (hreached : ∀ π, reached' (t :: π) = reached π) :
    Prints d reached' (ns.map (.below t)) vs := by
  unfold Prints
  rw [List.filter_map, List.forall₂_map_left_iff]
  exact h.imp fun _ _ hshows => (Shows.below_iff hreached).2 hshows

theorem Prints.nil : Prints d reached [] [] := List.Forall₂.nil

/-- A node that is no `print` prints nothing by itself. -/
theorem Prints.single (hn : n.isPrint = false) : Prints d reached [n] [] := by
  unfold Prints
  rw [List.filter_cons_of_neg (by rw [hn]; exact Bool.false_ne_true)]
  exact .nil

/-- A node that evaluation does not come to shows nothing. -/
theorem not_shows_of_not_reached (hn : reached n.place = none) : ¬Shows d reached n v := by
  rintro ⟨l, operand, env, -, hreached, -⟩
  rw [hn] at hreached
  cases hreached

theorem not_shows_single (hn : n.isPrint = false) : ∀ m ∈ [n], ∀ v, ¬Shows d reached m v := by
  rintro m hm v ⟨l, operand, env, hexpr, -, -⟩
  rw [← List.mem_singleton.1 hm] at hn
  simp only [TreeNode.isPrint, hexpr] at hn
  cases hn

/-- Going up one level, where the nodes `ms` come first and the nodes `back` last. -/
theorem PrintsUpTo.below (h : PrintsUpTo d reached ns n vs)
    (hreached : ∀ π, reached' (t :: π) = reached π) (hfront : Prints d reached' ms us)
    {back : List TreeNode} (hback : ∀ m ∈ back, ∀ v, ¬Shows d reached' m v) :
    PrintsUpTo d reached' (ms ++ (ns.map (.below t) ++ back)) (n.below t) (us ++ vs) := by
  obtain ⟨before, after, rfl, hbefore, hafter⟩ := h
  refine ⟨ms ++ before.map (.below t), after.map (.below t) ++ back, ?_,
    hfront.append (hbefore.below hreached), fun m hm v hshows => ?_⟩
  · simp only [List.map_append, List.map_cons, List.append_assoc, List.cons_append]
  · rcases List.mem_append.1 hm with hm | hm
    · obtain ⟨m', hm', rfl⟩ := List.mem_map.1 hm
      exact hafter m' hm' v ((Shows.below_iff hreached).1 hshows)
    · exact hback m hm v hshows

theorem PrintsUpTo.below_first (h : PrintsUpTo d reached ns n vs)
    (hreached : ∀ π, reached' (t :: π) = reached π) {back : List TreeNode}
    (hback : ∀ m ∈ back, ∀ v, ¬Shows d reached' m v) :
    PrintsUpTo d reached' (ns.map (.below t) ++ back) (n.below t) vs :=
  h.below hreached .nil hback

end Prints

/-! ## Evaluations in a row -/

section Printed

variable {α β : Type} {r : Run α} {f : α → Env → Run β}

theorem Run.printed_andThen_of_ok {a : α} (h : r.result = .ok a) :
    (r.andThen f).printed = r.printed ++ (f a r.env).printed := by
  simp only [andThen, h]

theorem Run.printed_andThen_of_error {err : Located EvalError} (h : r.result = .error err) :
    (r.andThen f).printed = r.printed := by
  simp only [andThen, h]

theorem Run.printed_located {env : Env} {loc : Location} (o : Except EvalError α) :
    (Run.located env loc o).printed = [] := by
  cases o <;> rfl

end Printed

/-! ## Expressions -/

/-- All assignments in an expression are to variables. -/
def Expr.AssignsVariables : Expr → Prop
  | int _ _ | bool _ _ | var _ _ _ => True
  | unary _ _ _ e | print _ e => e.AssignsVariables
  | binary _ _ _ a b => a.AssignsVariables ∧ b.AssignsVariables
  | assign _ _ _ (var _ _ _) v => v.AssignsVariables
  | assign _ _ _ _ _ => False

variable {d : Dialect} {env env' : Env}

/-- An assignment prints what its right side prints. -/
theorem Expr.printed_assign {l l' : Location} {ty ty' : Ty} {op : BinaryOp} {z : String} {v : Expr}
    {y : Value} (hv : (v.eval d env).result = .ok y) :
    ((assign l ty op (var l' ty' z) v).eval d env).printed = (v.eval d env).printed := by
  simp only [eval, Run.printed_andThen_of_ok hv]
  cases d.update op (Env.value env z) y <;> exact List.append_nil _

theorem Expr.prints_of_ok {e : Expr} (hvars : e.AssignsVariables) {v : Value}
    (h : (e.eval d env).result = .ok v) :
    Prints d (e.reached d env) e.nodes (e.eval d env).printed := by
  induction e generalizing env v with
  | int | bool | var => exact .single rfl
  | unary l ty op e ih =>
    obtain ⟨w, he, -, -⟩ := eval_unary_ok h
    simp only [nodes, eval, Run.printed_andThen_of_ok he]
    exact ((ih hvars he).below fun _ => rfl).append (.single rfl)
  | binary l ty op a b iha ihb =>
    obtain ⟨x, y, ha, hb, -, -⟩ := eval_binary_ok h
    simp only [nodes, eval, Run.printed_andThen_of_ok ha, Run.printed_andThen_of_ok hb,
      Run.printed_located]
    exact ((iha hvars.1 ha).below fun _ => rfl).append
      (((ihb hvars.2 hb).below (reached_second ha)).append (.single rfl))
  | assign l ty op target right _ ih =>
    cases target with
    | var l' ty' z =>
      obtain ⟨w, hv, -, -⟩ := eval_assign_ok h
      rw [nodes, printed_assign hv, ← List.append_nil (right.eval d env).printed]
      exact (Prints.single rfl).append (((ih hvars hv).below fun _ => rfl).append (.single rfl))
    | _ => cases hvars
  | print l e ih =>
    obtain ⟨w, he, -, -⟩ := eval_print_ok h
    simp only [nodes, eval, Run.printed_andThen_of_ok he]
    refine ((ih hvars he).below fun _ => rfl).append (.cons ?_ .nil)
    exact ⟨l, e, env, rfl, rfl, he⟩

/-- At a node that fails all operands have been printed. -/
theorem Expr.Fails.printsUpTo {e : Expr} {cause : EvalError} (h : e.Fails d env cause env')
    (hvars : e.AssignsVariables) :
    PrintsUpTo d (e.reached d env) e.nodes ⟨[], e⟩ (e.eval d env).printed := by
  cases h with
  | @binary l ty op a b x y _ ha hb =>
    refine ⟨a.nodes.map (.below .first) ++ b.nodes.map (.below .second), [], ?_, ?_, ?_⟩
    · simp only [nodes, List.append_assoc]
    · simp only [eval, Run.printed_andThen_of_ok ha, Run.printed_andThen_of_ok hb,
        Run.printed_located, List.append_nil]
      exact ((prints_of_ok hvars.1 ha).below fun _ => rfl).append
        ((prints_of_ok hvars.2 hb).below (reached_second ha))
    · intro m hm
      cases hm
  | @assign l l' ty ty' op z v y _ hv hop =>
    refine ⟨(var l' ty' z).nodes.map (.below .first) ++ v.nodes.map (.below .second), [], ?_, ?_,
      ?_⟩
    · simp only [nodes, List.append_assoc]
    · rw [printed_assign hv]
      exact (Prints.single rfl).append ((prints_of_ok (e := v) hvars hv).below fun _ => rfl)
    · intro m hm
      cases hm

/-- **An evaluation that stops** has printed what stands before the node that fails. -/
theorem Expr.printsUpTo_of_reached {e x : Expr} {π : Place} {env₁ : Env} {cause : EvalError}
    (hsorted : e.WellSorted) (hvars : e.AssignsVariables)
    (hx : e.reached d env π = some (x, env₁)) (hfails : x.Fails d env₁ cause env') :
    PrintsUpTo d (e.reached d env) e.nodes ⟨π, x⟩ (e.eval d env).printed := by
  fun_induction Expr.reached d env e π with
  | case1 => cases hx; exact hfails.printsUpTo hvars
  | case2 env l ty op e π ih =>
    have hstops := stopsWith_of_reached (e := e) hsorted hx hfails
    simp only [nodes, eval, Run.printed_andThen_of_error hstops.1]
    exact (ih hsorted hvars hx).below_first (fun _ => rfl) (not_shows_single rfl)
  | case3 env l ty op a b π ih =>
    have hstops := stopsWith_of_reached hsorted.2.1 hx hfails
    simp only [nodes, eval, Run.printed_andThen_of_error hstops.1]
    refine (ih hsorted.2.1 hvars.1 hx).below_first (fun _ => rfl) fun m hm v => ?_
    rcases List.mem_append.1 hm with hm | hm
    · obtain ⟨m', -, rfl⟩ := List.mem_map.1 hm
      exact not_shows_of_not_reached (not_reached_second hstops.1 m'.place)
    · exact not_shows_single rfl m hm v
  | case4 env l ty op a b π ih =>
    obtain ⟨env₂, hnext, hb⟩ := Option.bind_eq_some_iff.1 hx
    obtain ⟨rfl, w, ha⟩ := Run.next?_eq_some hnext
    have hstops := stopsWith_of_reached hsorted.2.2 hb hfails
    simp only [nodes, eval, Run.printed_andThen_of_ok ha, Run.printed_andThen_of_error hstops.1]
    exact (ih _ hsorted.2.2 hvars.2 hb).below (reached_second ha)
      ((prints_of_ok hvars.1 ha).below fun _ => rfl) (not_shows_single rfl)
  | case5 env l ty op l' ty' z v π ih =>
    have hstops := stopsWith_of_reached hsorted.2.2 hx hfails
    have htarget : Prints d ((assign l ty op (var l' ty' z) v).reached d env)
        [⟨[.first], var l' ty' z⟩] [] := .single rfl
    simp only [nodes, eval, Run.printed_andThen_of_error hstops.1]
    exact (ih hsorted.2.2 hvars hx).below (fun _ => rfl) htarget (not_shows_single rfl)
  | case6 env l e π ih =>
    have hstops := stopsWith_of_reached (e := e) hsorted hx hfails
    simp only [nodes, eval, Run.printed_andThen_of_error hstops.1]
    refine (ih hsorted hvars hx).below_first (fun _ => rfl) fun m hm v => ?_
    rw [List.mem_singleton.1 hm]
    -- the node itself is a `print`, whose operand has no value
    rintro ⟨l', operand, env₂, hexpr, hreached, hvalue⟩
    cases hexpr
    cases hreached
    rw [hstops.1] at hvalue
    cases hvalue
  | case7 => cases hx

/-! ## Programs -/

theorem Program.prints_of_ok {p : Program} (hvars : ∀ e ∈ p, e.AssignsVariables) {last v : Value}
    (h : (Program.evalFrom d last env p).result = .ok v) :
    Prints d (Program.reached d env p) (Program.nodes p)
      (Program.evalFrom d last env p).printed := by
  induction p generalizing env last with
  | nil => exact .nil
  | cons e p ih =>
    obtain ⟨w, he, hp, -⟩ := Program.evalFrom_cons_ok h
    simp only [nodes, evalFrom, Run.printed_andThen_of_ok he]
    exact ((Expr.prints_of_ok (hvars e List.mem_cons_self) he).below fun _ => rfl).append
      ((ih (fun e' h' => hvars e' (List.mem_cons_of_mem e h')) hp).below
        (Program.reached_second he))

theorem Program.printsUpTo_of_reached {p : Program} {x : Expr} {π : Place} {env₁ : Env}
    {cause : EvalError} (hsorted : ∀ e ∈ p, e.WellSorted) (hvars : ∀ e ∈ p, e.AssignsVariables)
    (hx : Program.reached d env p π = some (x, env₁)) (hfails : x.Fails d env₁ cause env')
    (last : Value) :
    PrintsUpTo d (Program.reached d env p) (Program.nodes p) ⟨π, x⟩
      (Program.evalFrom d last env p).printed := by
  fun_induction Program.reached d env p π generalizing last with
  | case1 env e p π =>
    have hs := hsorted e List.mem_cons_self
    have hv := hvars e List.mem_cons_self
    have hstops := Expr.stopsWith_of_reached hs hx hfails
    simp only [nodes, evalFrom, Run.printed_andThen_of_error hstops.1]
    refine (Expr.printsUpTo_of_reached hs hv hx hfails).below_first (t := .first) (fun _ => rfl)
      fun m hm v => ?_
    obtain ⟨m', -, rfl⟩ := List.mem_map.1 hm
    exact not_shows_of_not_reached (Program.not_reached_second hstops.1 m'.place)
  | case2 env e p π ih =>
    obtain ⟨env₂, hnext, hp⟩ := Option.bind_eq_some_iff.1 hx
    obtain ⟨rfl, w, he⟩ := Run.next?_eq_some hnext
    have hup := ih _ (fun e' h' => hsorted e' (List.mem_cons_of_mem e h'))
      (fun e' h' => hvars e' (List.mem_cons_of_mem e h')) hp w
    have hfirst := Expr.prints_of_ok (hvars e List.mem_cons_self) he
    simp only [nodes, evalFrom, Run.printed_andThen_of_ok he]
    rw [← List.append_nil ((Program.nodes p).map (TreeNode.below .second))]
    exact hup.below (Program.reached_second he) (hfirst.below fun _ => rfl) fun m hm => by cases hm
  | case3 => cases hx

end Reckon
