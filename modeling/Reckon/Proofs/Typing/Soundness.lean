import Reckon.Proofs.Evaluation
import Reckon.Proofs.Expr.Parts
import Reckon.Proofs.Typing.Rules

/-!
# Type soundness

A value fits a type if it is of this type or `unit`, the value of `print`. Checking and evaluation
walk over an expression in the same order, so the table and the environment that they leave agree
again if they agreed before.

* `Agree t env`: the variables and constants of `t` are what `env` binds, with values that fit.
* `Checks.sound`: a checked expression keeps the agreement, and its value fits its type.
* `Program.preserves`, `Program.sound`: from expressions to programs, and the type of the last
  expression.
-/

namespace Reckon

/-! ## Values of a type -/

/-- The type that a value is of. -/
def Value.tag? : Value → Option Ty
  | bool _ => some .bool
  | int _ => some .int
  | unit | float _ => none

/-- A value of the type `ty`, or nothing. -/
def Value.Fits (v : Value) (ty : Ty) : Prop := v = .unit ∨ v.tag? = some ty

/-- The types that values are of. -/
def Ty.IsData (ty : Ty) : Prop := ty = .int ∨ ty = .bool

theorem Value.fits_unit (ty : Ty) : unit.Fits ty := .inl rfl

theorem Value.fits_int (n : Int32) : (int n).Fits .int := .inr rfl

theorem Value.fits_bool (b : Bool) : (bool b).Fits .bool := .inr rfl

theorem Value.fits_onWords (f : Int32 → Int32 → Int32) (x y : Value) :
    (onWords f x y).Fits .int := by
  unfold onWords
  split
  · exact fits_int _
  · exact fits_unit _

theorem Value.fits_onBools (f : Bool → Bool → Bool) (x y : Value) : (onBools f x y).Fits .bool := by
  unfold onBools
  split
  · exact fits_bool _
  · exact fits_unit _

theorem OrderOp.fits_apply (op : OrderOp) (x y : Value) : (op.apply x y).Fits .bool := by
  unfold OrderOp.apply
  split
  · exact Value.fits_bool _
  · exact Value.fits_unit _

theorem Value.fits_complement {v : Value} {ty : Ty} (h : v.Fits ty) : v.complement.Fits ty := by
  rcases h with rfl | h
  · exact fits_unit ty
  · cases v with
    | unit | float => cases h
    | bool b => cases h; exact fits_bool _
    | int n => cases h; exact fits_int _

/-! ## Operators -/

theorem UnaryOp.fits_apply {op : UnaryOp} {v : Value} (h : v.Fits op.sig.operand) :
    (op.apply v).Fits op.sig.result := by
  cases op with
  | plus => exact h
  | minus =>
    show v.negate.Fits .int
    unfold Value.negate
    split
    · exact Value.fits_int _
    · exact Value.fits_unit _
  | bitNot | logicNot => exact Value.fits_complement h

theorem ArithOp.fits_apply {op : ArithOp} {x y v : Value} (h : op.apply x y = .ok v) :
    v.Fits .int := by
  unfold ArithOp.apply at h
  split at h
  · cases h
  · cases h
    exact Value.fits_onWords _ x y

/-- What a binary operator yields fits its result type, whatever the operands are. -/
theorem BinaryOp.fits_apply {d : Dialect} {op : BinaryOp} {x y v : Value}
    (h : op.apply d x y = .ok v) : v.Fits op.sig.result := by
  cases op with
  | arith op => exact ArithOp.fits_apply h
  | order op => cases h; exact op.fits_apply x y
  | equal => cases h; exact Value.fits_bool _
  | notEqual => cases h; exact Value.fits_bool _
  | logic op => cases h; exact Value.fits_onBools _ x y
  | assign | arithAssign | logicAssign => cases h

/-- A compound assignment combines with an operator of the same types. -/
theorem Dialect.sig_updateOp (d : Dialect) (op : BinaryOp) : (d.updateOp op).sig = op.sig := by
  unfold Dialect.updateOp
  split
  · rename_i h
    rw [h.1]
    rfl
  · exact op.sig_base

theorem BinaryOp.isData_result {op : BinaryOp} (h : op ≠ .assign) : op.sig.result.IsData := by
  cases op with
  | assign => exact absurd rfl h
  | arith | arithAssign => exact .inl rfl
  | order | equal | notEqual | logic | logicAssign => exact .inr rfl

theorem UnaryOp.isData_result (op : UnaryOp) : op.sig.result.IsData := by
  cases op with
  | plus | minus | bitNot => exact .inl rfl
  | logicNot => exact .inr rfl

/-- A compound assignment keeps the type of its target. -/
theorem BinaryOp.result_eq_of_takes {op : BinaryOp} (hop : op ≠ .assign)
    (hassign : op.isAssign = true) {left right : Ty} (h : op.sig.Takes left right) :
    op.sig.result = left := by
  cases op with
  | arithAssign | logicAssign => exact h.1.symm
  | assign => exact absurd rfl hop
  | arith | order | equal | notEqual | logic => cases hassign

/-! ## Tables and environments -/

/-- The values that a name may have at run time. Names of operators have none. -/
def Decl.Admits : Decl → Value → Prop
  | var ty, v => ty.IsData ∧ v.Fits ty
  | const b, v => v = .bool b
  | unary _, _ | binary _, _ => False

/-- Whether a name is declared as something that has a value. -/
def Decl.isData : Decl → Bool
  | var _ | const _ => true
  | unary _ | binary _ => false

/-- A table and an environment with one level each, the operators declared as in the beginning, and
the same variables and constants. -/
structure Agree (t : Table Decl) (env : Env) : Prop where
  table_flat : t.depth = 0
  env_flat : env.depth = 0
  unarySig_eq : ∀ op, t.unarySig op = op.sig
  binarySig_eq : ∀ op, t.binarySig op = op.sig
  declared : ∀ {x v}, env.get? x = some v → ∃ d, t.get? x = some d ∧ d.Admits v
  bound : ∀ {x d}, t.get? x = some d → d.isData = true → ∃ v, env.get? x = some v ∧ d.Admits v

theorem Env.value_eq_of_get? {env : Env} {x : String} {v : Value} (hx : env.get? x = some v) :
    Env.value env x = v := by
  rw [Env.value, hx]
  rfl

namespace Agree

variable {t : Table Decl} {env : Env} {x : String} {ty : Ty} {v : Value}

/-- The value of a variable fits its type, which is a type of values. -/
theorem var (h : Agree t env) (hx : t.get? x = some (.var ty)) :
    ty.IsData ∧ (Env.value env x).Fits ty := by
  obtain ⟨v, hv, hadmits⟩ := h.bound hx rfl
  rw [Env.value_eq_of_get? hv]
  exact hadmits

theorem const {b : Bool} (h : Agree t env) (hx : t.get? x = some (.const b)) :
    Env.value env x = .bool b := by
  obtain ⟨v, hv, hadmits⟩ := h.bound hx rfl
  exact (Env.value_eq_of_get? hv).trans hadmits

/-- Binding a variable to another value that fits. -/
theorem rebind (h : Agree t env) (hx : t.get? x = some (.var ty)) (hv : v.Fits ty) :
    Agree t (env.save x v) where
  table_flat := h.table_flat
  env_flat := (Table.depth_save env x v).trans h.env_flat
  unarySig_eq := h.unarySig_eq
  binarySig_eq := h.binarySig_eq
  declared {y w} hy := by
    rw [Table.get?_save] at hy
    split at hy
    · rename_i heq
      cases hy
      subst heq
      exact ⟨.var ty, hx, (h.var hx).1, hv⟩
    · exact h.declared hy
  bound {y d} hy hd := by
    rw [Table.get?_save]
    split
    · rename_i heq
      subst heq
      rw [hx] at hy
      cases hy
      exact ⟨v, rfl, (h.var hx).1, hv⟩
    · exact h.bound hy hd

/-- A name becomes a variable. -/
theorem declare (h : Agree t env) (hty : ty.IsData) (hv : v.Fits ty) :
    Agree (t.save x (.var ty)) (env.save x v) where
  table_flat := (Table.depth_save t x _).trans h.table_flat
  env_flat := (Table.depth_save env x v).trans h.env_flat
  unarySig_eq op := by
    have hop := h.unarySig_eq op
    unfold Table.unarySig at hop ⊢
    rw [Table.get?_save]
    by_cases hname : op.name = x
    · -- a variable with the name of an operator does not hide it
      rw [if_pos hname]
    · rw [if_neg hname]
      exact hop
  binarySig_eq op := by
    have hop := h.binarySig_eq op
    unfold Table.binarySig at hop ⊢
    rw [Table.get?_save]
    by_cases hname : op.name = x
    · rw [if_pos hname]
    · rw [if_neg hname]
      exact hop
  declared {y w} hy := by
    rw [Table.get?_save] at hy ⊢
    split at hy
    · rename_i heq
      cases hy
      rw [if_pos heq]
      exact ⟨.var ty, rfl, hty, hv⟩
    · rename_i hne
      rw [if_neg hne]
      exact h.declared hy
  bound {y d} hy hd := by
    rw [Table.get?_save] at hy ⊢
    split at hy
    · rename_i heq
      cases hy
      rw [if_pos heq]
      exact ⟨v, rfl, hty, hv⟩
    · rename_i hne
      rw [if_neg hne]
      exact h.bound hy hd

end Agree

/-! ## Expressions -/

/-- **Soundness.** A checked expression that yields a value leaves an environment that agrees with
the table after it, and the value fits its type. -/
theorem Checks.sound {t t' : Table Decl} {e e' : Expr} {ty : Ty} {d : Dialect} {env : Env}
    {v : Value} (hc : Checks t e ty e' t') (hp : e.WellSorted) (ha : Agree t env)
    (hr : (e'.eval d env).result = .ok v) :
    Agree t' (e'.eval d env).env ∧ v.Fits ty ∧ ty.IsData := by
  -- along the rules; each case follows the order in which the parts are checked and evaluated
  induction hc generalizing env v with
  | int t l n => cases hr; exact ⟨ha, Value.fits_int n, .inl rfl⟩
  | bool t l b => cases hr; exact ⟨ha, Value.fits_bool b, .inr rfl⟩
  | var hx =>
    cases hr
    obtain ⟨hty, hfits⟩ := ha.var hx
    exact ⟨ha, hfits, hty⟩
  | const hx =>
    cases hr
    rw [ha.const hx]
    exact ⟨ha, Value.fits_bool _, .inr rfl⟩
  | @unary _ t' _ _ _ op _ _ _ hop ih =>
    obtain ⟨w, hw, rfl, henv⟩ := Expr.eval_unary_ok hr
    obtain ⟨ha', hfits, -⟩ := ih hp ha hw
    rw [henv, ha'.unarySig_eq]
    rw [hop, ha'.unarySig_eq] at hfits
    exact ⟨ha', UnaryOp.fits_apply hfits, op.isData_result⟩
  | @binary _ _ t₂ _ _ _ _ op _ _ _ _ _ _ _ iha ihb =>
    obtain ⟨hop, hpa, hpb⟩ := hp
    obtain ⟨x, y, hx, hy, hv, henv⟩ := Expr.eval_binary_ok hr
    obtain ⟨ha₁, -, -⟩ := iha hpa ha hx
    obtain ⟨ha₂, -, -⟩ := ihb hpb ha₁ hy
    rw [henv, ha₂.binarySig_eq]
    refine ⟨ha₂, BinaryOp.fits_apply hv, BinaryOp.isData_result ?_⟩
    rintro rfl
    cases hop
  | declare hv hx ih =>
    obtain ⟨-, -, hpv⟩ := hp
    obtain ⟨w, hw, hupdate, henv⟩ := Expr.eval_assign_ok hr
    obtain ⟨ha', hfits, hty⟩ := ih hpv ha hw
    cases hupdate
    rw [henv]
    exact ⟨ha'.declare hty hfits, hfits, hty⟩
  | reassign hv hx ih =>
    obtain ⟨-, -, hpv⟩ := hp
    obtain ⟨w, hw, hupdate, henv⟩ := Expr.eval_assign_ok hr
    obtain ⟨ha', hfits, hty⟩ := ih hpv ha hw
    cases hupdate
    rw [henv]
    exact ⟨ha'.rebind hx hfits, hfits, hty⟩
  | @compound _ t' _ _ _ _ _ _ op _ _ _ _ hop hx hsig ih =>
    obtain ⟨hassign, -, hpv⟩ := hp
    obtain ⟨w, hw, hupdate, henv⟩ := Expr.eval_assign_ok hr
    obtain ⟨ha', -, -⟩ := ih hpv ha hw
    rw [Dialect.update, if_neg hop] at hupdate
    have hfits := BinaryOp.fits_apply hupdate
    rw [Dialect.sig_updateOp] at hfits
    rw [ha'.binarySig_eq] at hsig
    have hresult := BinaryOp.result_eq_of_takes hop hassign hsig
    rw [henv, ha'.binarySig_eq]
    exact ⟨ha'.rebind hx (hresult ▸ hfits), hfits, BinaryOp.isData_result hop⟩
  | print _ ih =>
    obtain ⟨w, hw, rfl, henv⟩ := Expr.eval_print_ok hr
    obtain ⟨ha', -, hty⟩ := ih hp ha hw
    rw [henv]
    exact ⟨ha', Value.fits_unit _, hty⟩

/-! ## Programs -/

/-- What every expression of a program preserves, the program preserves; and what every expression
gives for its value and its type holds of the value of the program and the type of its last
expression. -/
theorem Program.preserves (Inv : Table Decl → Env → Prop) (Gives : Value → Ty → Prop) {d : Dialect}
    {p : Program}
    (step : ∀ e ∈ p, ∀ {t t' : Table Decl} {e' : Expr} {ty : Ty} {env : Env} {v : Value},
      Checks t e ty e' t' → Inv t env → (e'.eval d env).result = .ok v →
        Inv t' (e'.eval d env).env ∧ Gives v ty)
    {t : Table Decl} {env : Env} {last v : Value} (hc : (Program.check t p).result = .ok ())
    (ha : Inv t env)
    (hr : (Program.evalFrom d last env (Program.check t p).tree).result = .ok v) :
    Inv (Program.check t p).table (Program.evalFrom d last env (Program.check t p).tree).env ∧
      (p ≠ [] → ∃ e, (Program.check t p).tree.getLast? = some e ∧ Gives v e.ty) := by
  induction p generalizing t env last with
  | nil => exact ⟨ha, fun h => absurd rfl h⟩
  | cons e p ih =>
    obtain ⟨ty, hchecks, hcheck, htree, htable⟩ := Program.check_cons_ok hc
    rw [htree] at hr ⊢
    obtain ⟨w, hw, hrest, henv⟩ := Program.evalFrom_cons_ok hr
    obtain ⟨ha₁, hgives⟩ := step e List.mem_cons_self hchecks ha hw
    obtain ⟨ha₂, hlast⟩ := ih (fun e he => step e (List.mem_cons_of_mem _ he)) hcheck ha₁ hrest
    rw [htable, henv]
    refine ⟨ha₂, fun _ => ?_⟩
    cases p with
    | nil =>
      -- the value of the only expression is the value of the program
      cases hrest
      exact ⟨_, rfl, hchecks.ty_eq.symm ▸ hgives⟩
    | cons e' p =>
      obtain ⟨e'', hget, hgives'⟩ := hlast (List.cons_ne_nil _ _)
      refine ⟨e'', ?_, hgives'⟩
      rw [List.getLast?_cons, hget]
      rfl

/-- **Soundness of programs.** The value of a program fits the type of its last expression. -/
theorem Program.sound {t : Table Decl} {p : Program} {d : Dialect} {env : Env} {last v : Value}
    (hp : ∀ e ∈ p, e.WellSorted) (hc : (Program.check t p).result = .ok ()) (ha : Agree t env)
    (hr : (Program.evalFrom d last env (Program.check t p).tree).result = .ok v) :
    Agree (Program.check t p).table (Program.evalFrom d last env (Program.check t p).tree).env ∧
      (p ≠ [] → ∃ e, (Program.check t p).tree.getLast? = some e ∧ v.Fits e.ty) := by
  refine Program.preserves Agree Value.Fits (fun e he => ?_) hc ha hr
  intro t t' e' ty env v hchecks ha hr
  obtain ⟨ha', hfits, -⟩ := hchecks.sound (hp e he) ha hr
  exact ⟨ha', hfits⟩

end Reckon
