import Reckon.Evaluation
import Reckon.Typing

/-!
# Attached types

Checking attaches types and reads none of those that are attached already. So an expression that an
earlier check has left types on, in whole or in part, is checked like one without types; and where
the check succeeds, no old type is left. Evaluation reads no types at all.

* `Expr.untyped`: an expression before it is checked.
* `Expr.check_untyped`, `Program.check_untyped`: attached types do not matter for a check.
* `Expr.untyped_tree`, `Program.untyped_tree`: a check changes nothing but attached types.
* `Program.eval_tree`: so it does not matter for the evaluation of a program.
-/

namespace Reckon

/-- An expression before it is checked. -/
def Expr.untyped : Expr → Expr
  | int l n => int l n
  | bool l b => bool l b
  | var l _ x => var l .unknown x
  | unary l _ op e => unary l .unknown op e.untyped
  | binary l _ op a b => binary l .unknown op a.untyped b.untyped
  | assign l _ op a b => assign l .unknown op a.untyped b.untyped
  | print l e => print l e.untyped

/-- Two checks with the same outcome. What they leave of a tree is the same if they succeed. -/
structure Checked.Same {τ α : Type} (c c' : Checked τ α) : Prop where
  result : c.result = c'.result
  table : c.table = c'.table
  tree : ∀ a, c.result = .ok a → c.tree = c'.tree

/-- Checks with the same outcome are equal if they succeed. -/
theorem Checked.Same.eq_of_ok {τ α : Type} {c c' : Checked τ α} (h : c.Same c') {a : τ}
    (ha : c'.result = .ok a) : c = c' := by
  have htree := h.tree a (h.result.trans ha)
  obtain ⟨result, tree, table⟩ := c
  obtain ⟨rfl, rfl, -⟩ := h
  cases htree
  rfl

/-! ## Assignments -/

theorem assignTo_untyped (t : Table Decl) (l : Location) (op : BinaryOp) (target : Expr) (ty : Ty) :
    assignTo t l op target.untyped ty = assignTo t l op target ty := by
  cases target <;> rfl

/-- A target that can be assigned to is a variable, whose type is overwritten. -/
theorem retype_untyped_of_assignTo {t : Table Decl} {l : Location} {op : BinaryOp} {target : Expr}
    {ty : Ty} {a : Assignment} (h : assignTo t l op target ty = .ok a) (ty' : Ty) :
    target.untyped.retype ty' = target.retype ty' := by
  cases target with
  | var => rfl
  | _ => cases h

/-! ## Checks -/

/-- **Attached types do not matter.** -/
theorem Expr.check_untyped (t : Table Decl) (e : Expr) : (e.untyped.check t).Same (e.check t) := by
  induction e generalizing t with
  | int | bool => exact ⟨rfl, rfl, fun _ _ => rfl⟩
  | var l ty x =>
    simp only [untyped, check]
    cases nameType t l x with
    | error err => exact ⟨rfl, rfl, fun _ h => by cases h⟩
    | ok found => exact ⟨rfl, rfl, fun _ _ => rfl⟩
  | unary l ty op e ih =>
    have he := ih t
    simp only [untyped, check, he.result, he.table]
    cases hr : (e.check t).result with
    | error err => exact ⟨rfl, rfl, fun _ h => by cases h⟩
    | ok tye =>
      rw [he.tree tye (he.result.trans hr)]
      dsimp only
      cases ((e.check t).table.unarySig op).apply l op tye with
      | error err => exact ⟨rfl, rfl, fun _ h => by cases h⟩
      | ok result => exact ⟨rfl, rfl, fun _ _ => rfl⟩
  | binary l ty op a b iha ihb =>
    have ha := iha t
    have hb := ihb (a.check t).table
    simp only [untyped, check, ha.result, ha.table, hb.result, hb.table]
    cases hra : (a.check t).result with
    | error err => exact ⟨rfl, rfl, fun _ h => by cases h⟩
    | ok tya =>
      rw [ha.tree tya (ha.result.trans hra)]
      dsimp only
      cases hrb : (b.check (a.check t).table).result with
      | error err => exact ⟨rfl, rfl, fun _ h => by cases h⟩
      | ok tyb =>
        rw [hb.tree tyb (hb.result.trans hrb)]
        dsimp only
        cases ((b.check (a.check t).table).table.binarySig op).apply l op tya tyb with
        | error err => exact ⟨rfl, rfl, fun _ h => by cases h⟩
        | ok result => exact ⟨rfl, rfl, fun _ _ => rfl⟩
  | assign l ty op target v _ ih =>
    have hv := ih t
    simp only [untyped, check, hv.result, hv.table, assignTo_untyped]
    cases hr : (v.check t).result with
    | error err => exact ⟨rfl, rfl, fun _ h => by cases h⟩
    | ok tyv =>
      rw [hv.tree tyv (hv.result.trans hr)]
      dsimp only
      cases hto : assignTo (v.check t).table l op target tyv with
      | error err => exact ⟨rfl, rfl, fun _ h => by cases h⟩
      | ok a =>
        dsimp only
        rw [retype_untyped_of_assignTo hto]
        exact ⟨rfl, rfl, fun _ _ => rfl⟩
  | print l e ih =>
    have he := ih t
    exact ⟨he.result, he.table, fun ty h => congrArg (print l) (he.tree ty h)⟩

theorem Program.check_untyped (t : Table Decl) (p : Program) :
    (Program.check t (p.map Expr.untyped)).Same (Program.check t p) := by
  induction p generalizing t with
  | nil => exact ⟨rfl, rfl, fun _ _ => rfl⟩
  | cons e p ih =>
    have he := e.check_untyped t
    have hp := ih (e.check t).table
    simp only [List.map_cons, Program.check, he.result, he.table]
    cases hr : (e.check t).result with
    | error err => exact ⟨rfl, rfl, fun _ h => by cases h⟩
    | ok ty =>
      refine ⟨hp.result, hp.table, fun _ h => ?_⟩
      show _ :: _ = _ :: _
      rw [he.tree ty (he.result.trans hr), hp.tree () h]

/-! ## What a check leaves -/

theorem Expr.untyped_retype (ty : Ty) (e : Expr) : (e.retype ty).untyped = e.untyped := by
  cases e <;> rfl

/-- **A check attaches types and changes nothing else.** -/
theorem Expr.untyped_tree (t : Table Decl) (e : Expr) : (e.check t).tree.untyped = e.untyped := by
  induction e generalizing t with
  | int | bool => rfl
  | var l ty x =>
    simp only [check]
    split <;> rfl
  | unary l ty op e ih =>
    simp only [check]
    split
    · simp only [untyped, ih]
    · split <;> simp only [untyped, ih]
  | binary l ty op a b iha ihb =>
    simp only [check]
    split
    · simp only [untyped, iha]
    · split
      · simp only [untyped, iha, ihb]
      · split <;> simp only [untyped, iha, ihb]
  | assign l ty op target v _ ih =>
    simp only [check]
    split
    · simp only [untyped, ih]
    · split
      · simp only [untyped, ih]
      · simp only [untyped, ih, untyped_retype]
  | print l e ih => simp only [check, untyped, ih]

theorem Program.untyped_tree (t : Table Decl) (p : Program) :
    (Program.check t p).tree.map Expr.untyped = p.map Expr.untyped := by
  induction p generalizing t with
  | nil => rfl
  | cons e p ih =>
    simp only [Program.check]
    split
    · simp only [List.map_cons, Expr.untyped_tree]
    · simp only [List.map_cons, Expr.untyped_tree, ih]

/-! ## Evaluation -/

theorem Expr.eval_untyped (d : Dialect) (env : Env) (e : Expr) :
    e.untyped.eval d env = e.eval d env := by
  induction e generalizing env with
  | int | bool | var => rfl
  | unary l ty op e ih => simp only [untyped, eval, ih]
  | binary l ty op a b iha ihb => simp only [untyped, eval, iha, ihb]
  | assign l ty op target v _ ih =>
    cases target with
    | var l' ty' x => simp only [untyped, eval, ih]
    | _ => rfl
  | print l e ih => simp only [untyped, eval, ih]

theorem Program.evalFrom_untyped (d : Dialect) (last : Value) (env : Env) (p : Program) :
    Program.evalFrom d last env (p.map Expr.untyped) = Program.evalFrom d last env p := by
  induction p generalizing last env with
  | nil => rfl
  | cons e p ih => simp only [List.map_cons, Program.evalFrom, e.eval_untyped, ih]

/-- **Evaluation reads no types.** A program is evaluated like what a check leaves of it. -/
theorem Program.eval_tree (d : Dialect) (env : Env) (t : Table Decl) (p : Program) :
    Program.eval d env (Program.check t p).tree = Program.eval d env p := by
  unfold Program.eval
  rw [← Program.evalFrom_untyped, Program.untyped_tree, Program.evalFrom_untyped]

end Reckon
