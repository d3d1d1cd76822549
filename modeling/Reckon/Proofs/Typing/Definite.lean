import Reckon.Proofs.Typing.Growth
import Reckon.Proofs.Typing.Soundness

/-!
# Definite values

Values fit their types up to `unit`, which is the value of `print` and of names that are not bound.
An expression without `print` whose compound assignments do not assign their own target on the right
has a value of exactly its type. The second condition is about the old value of a target: it is read
before the right side is evaluated, but the right side is checked first.

* `Expr.PrintFree`, `Expr.KeepsTargets`: the two conditions.
* `Definite t env`: every variable of `t` has a value of exactly its type in `env`.
* `Checks.definite`, `Program.definite`: both conditions keep all values definite.
-/

namespace Reckon

/-! ## Operators on values of their types -/

theorem Value.tag?_eq_int {v : Value} (h : v.tag? = some .int) : ∃ n, v = .int n := by
  cases v with
  | int n => exact ⟨n, rfl⟩
  | _ => cases h

theorem Value.tag?_eq_bool {v : Value} (h : v.tag? = some .bool) : ∃ b, v = .bool b := by
  cases v with
  | bool b => exact ⟨b, rfl⟩
  | _ => cases h

theorem UnaryOp.tag?_apply {op : UnaryOp} {v : Value} (h : v.tag? = some op.sig.operand) :
    (op.apply v).tag? = some op.sig.result := by
  cases op with
  | plus => exact h
  | minus | bitNot =>
    obtain ⟨n, rfl⟩ := Value.tag?_eq_int h
    rfl
  | logicNot =>
    obtain ⟨b, rfl⟩ := Value.tag?_eq_bool h
    rfl

theorem ArithOp.tag?_apply {op : ArithOp} {m n : Int32} {v : Value}
    (h : op.apply (.int m) (.int n) = .ok v) : v.tag? = some .int := by
  unfold ArithOp.apply at h
  split at h
  · cases h
  · cases h
    rfl

/-- A binary operator takes values of its operand types to values of its result type, unless it
fails. -/
theorem BinaryOp.tag?_apply {d : Dialect} {op : BinaryOp} {x y v : Value} {tyx tyy : Ty}
    (hx : x.tag? = some tyx) (hy : y.tag? = some tyy) (htakes : op.sig.Takes tyx tyy)
    (h : op.apply d x y = .ok v) : v.tag? = some op.sig.result := by
  cases op with
  | arith op =>
    obtain ⟨rfl, rfl⟩ := htakes
    obtain ⟨m, rfl⟩ := Value.tag?_eq_int hx
    obtain ⟨n, rfl⟩ := Value.tag?_eq_int hy
    exact ArithOp.tag?_apply h
  | order op =>
    obtain ⟨rfl, rfl⟩ := htakes
    obtain ⟨m, rfl⟩ := Value.tag?_eq_int hx
    obtain ⟨n, rfl⟩ := Value.tag?_eq_int hy
    cases h
    rfl
  | equal => cases h; rfl
  | notEqual => cases h; rfl
  | logic op =>
    obtain ⟨rfl, rfl⟩ := htakes
    obtain ⟨a, rfl⟩ := Value.tag?_eq_bool hx
    obtain ⟨b, rfl⟩ := Value.tag?_eq_bool hy
    cases h
    rfl
  | assign | arithAssign | logicAssign => cases h

/-! ## The two conditions -/

namespace Expr

/-- `print` stands nowhere in the expression. -/
def PrintFree (e : Expr) : Prop := ∀ l a, print l a ∉ e.parts

/-- No compound assignment in the expression plainly assigns its own target in its right side. -/
def KeepsTargets (e : Expr) : Prop :=
  ∀ l ty op l' ty' x v, assign l ty op (var l' ty' x) v ∈ e.parts → op ≠ .assign → x ∉ v.assigned

/-- Both conditions. -/
structure Plain (e : Expr) : Prop where
  printFree : e.PrintFree
  keepsTargets : e.KeepsTargets

theorem Plain.of_parts {e e' : Expr} (h : e.Plain) (hparts : ∀ n ∈ e'.parts, n ∈ e.parts) :
    e'.Plain where
  printFree l a hmem := h.printFree l a (hparts _ hmem)
  keepsTargets l ty op l' ty' x v hmem := h.keepsTargets l ty op l' ty' x v (hparts _ hmem)

end Expr

/-! ## Expressions -/

/-- Every variable has a value of exactly its type. -/
def Definite (t : Table Decl) (env : Env) : Prop :=
  ∀ x ty, t.get? x = some (.var ty) → ∃ v, env.get? x = some v ∧ v.tag? = some ty

namespace Definite

variable {t : Table Decl} {env : Env} {x : String} {ty : Ty} {v : Value}

theorem value (h : Definite t env) (hx : t.get? x = some (.var ty)) :
    (Env.value env x).tag? = some ty := by
  obtain ⟨v, hv, htag⟩ := h x ty hx
  rw [Env.value_eq_of_get? hv]
  exact htag

/-- Binding a variable to another value of its type. -/
theorem rebind (h : Definite t env) (hx : t.get? x = some (.var ty)) (hv : v.tag? = some ty) :
    Definite t (env.save x v) := by
  intro y ty' hy
  rw [Table.get?_save]
  by_cases hyx : y = x
  · subst hyx
    rw [hx] at hy
    cases hy
    exact ⟨v, if_pos rfl, hv⟩
  · rw [if_neg hyx]
    exact h y ty' hy

/-- A name becomes a variable. -/
theorem declare (h : Definite t env) (hv : v.tag? = some ty) :
    Definite (t.save x (.var ty)) (env.save x v) := by
  intro y ty' hy
  rw [Table.get?_save] at hy ⊢
  by_cases hyx : y = x
  · rw [if_pos hyx] at hy ⊢
    cases hy
    exact ⟨v, rfl, hv⟩
  · rw [if_neg hyx] at hy ⊢
    exact h y ty' hy

end Definite

/-- **Definite values.** A checked expression that meets both conditions yields a value of exactly
its type, and leaves every variable with a value of exactly its type. -/
theorem Checks.definite {t t' : Table Decl} {e e' : Expr} {ty : Ty} {d : Dialect} {env : Env}
    {v : Value} (hc : Checks t e ty e' t') (hp : e.WellSorted) (he : e.Plain) (ha : Agree t env)
    (hdef : Definite t env) (hr : (e'.eval d env).result = .ok v) :
    Definite t' (e'.eval d env).env ∧ v.tag? = some ty := by
  induction hc generalizing env v with
  | int | bool => cases hr; exact ⟨hdef, rfl⟩
  | var hx => cases hr; exact ⟨hdef, hdef.value hx⟩
  | const hx =>
    cases hr
    rw [ha.const hx]
    exact ⟨hdef, rfl⟩
  | unary hc hop ih =>
    have he' := he.of_parts fun n hn => List.mem_cons_of_mem _ hn
    obtain ⟨w, hw, rfl, henv⟩ := Expr.eval_unary_ok hr
    obtain ⟨ha', -, -⟩ := hc.sound hp ha hw
    obtain ⟨hdef', htag⟩ := ih hp he' ha hdef hw
    rw [hop, ha'.unarySig_eq] at htag
    rw [henv, ha'.unarySig_eq]
    exact ⟨hdef', UnaryOp.tag?_apply htag⟩
  | binary hca hcb htakes iha ihb =>
    obtain ⟨-, hpa, hpb⟩ := hp
    have hea := he.of_parts fun n hn => List.mem_cons_of_mem _ (List.mem_append_left _ hn)
    have heb := he.of_parts fun n hn => List.mem_cons_of_mem _ (List.mem_append_right _ hn)
    obtain ⟨x, y, hx, hy, hv, henv⟩ := Expr.eval_binary_ok hr
    obtain ⟨ha₁, -, -⟩ := hca.sound hpa ha hx
    obtain ⟨hdef₁, htagx⟩ := iha hpa hea ha hdef hx
    obtain ⟨ha₂, -, -⟩ := hcb.sound hpb ha₁ hy
    obtain ⟨hdef₂, htagy⟩ := ihb hpb heb ha₁ hdef₁ hy
    rw [ha₂.binarySig_eq] at htakes
    rw [henv, ha₂.binarySig_eq]
    exact ⟨hdef₂, BinaryOp.tag?_apply htagx htagy htakes hv⟩
  | declare hc hx ih =>
    have he' := he.of_parts fun n hn => List.mem_cons_of_mem _ (List.mem_append_right _ hn)
    obtain ⟨w, hw, hupdate, henv⟩ := Expr.eval_assign_ok hr
    obtain ⟨hdef', htag⟩ := ih hp.2.2 he' ha hdef hw
    cases hupdate
    rw [henv]
    exact ⟨hdef'.declare htag, htag⟩
  | reassign hc hx ih =>
    have he' := he.of_parts fun n hn => List.mem_cons_of_mem _ (List.mem_append_right _ hn)
    obtain ⟨w, hw, hupdate, henv⟩ := Expr.eval_assign_ok hr
    obtain ⟨hdef', htag⟩ := ih hp.2.2 he' ha hdef hw
    cases hupdate
    rw [henv]
    exact ⟨hdef'.rebind hx htag, htag⟩
  | compound hc hop hx htakes ih =>
    have he' := he.of_parts fun n hn => List.mem_cons_of_mem _ (List.mem_append_right _ hn)
    obtain ⟨w, hw, hupdate, henv⟩ := Expr.eval_assign_ok hr
    obtain ⟨ha', -, -⟩ := hc.sound hp.2.2 ha hw
    obtain ⟨hdef', htag⟩ := ih hp.2.2 he' ha hdef hw
    -- the right side does not declare the target, so it has a value before the right side is run
    have hkept := he.keepsTargets _ _ _ _ _ _ _ (Expr.self_mem_parts _) hop
    have hold := hdef.value ((hc.get?_eq_of_notMem hkept).symm.trans hx)
    rw [ha'.binarySig_eq] at htakes
    have hresult := BinaryOp.result_eq_of_takes hop hp.1 htakes
    rw [Dialect.update, if_neg hop] at hupdate
    rw [← Dialect.sig_updateOp d] at htakes
    have hnew := BinaryOp.tag?_apply hold htag htakes hupdate
    rw [Dialect.sig_updateOp] at hnew
    rw [henv, ha'.binarySig_eq]
    exact ⟨hdef'.rebind hx (hresult ▸ hnew), hnew⟩
  | @print _ _ l _ a _ _ _ => exact absurd List.mem_cons_self (he.printFree l a)

/-! ## Programs -/

/-- **Definite values of programs.** -/
theorem Program.definite {t : Table Decl} {p : Program} {d : Dialect} {env : Env} {last v : Value}
    (hp : ∀ e ∈ p, e.WellSorted) (hplain : ∀ e ∈ p, e.Plain)
    (hc : (Program.check t p).result = .ok ()) (ha : Agree t env) (hdef : Definite t env)
    (hr : (Program.evalFrom d last env (Program.check t p).tree).result = .ok v) :
    Definite (Program.check t p).table (Program.evalFrom d last env (Program.check t p).tree).env ∧
      (p ≠ [] → ∃ e, (Program.check t p).tree.getLast? = some e ∧ v.tag? = some e.ty) := by
  have hboth := Program.preserves (fun t env => Agree t env ∧ Definite t env)
    (fun v ty => v.tag? = some ty) (fun e he => ?_) hc ⟨ha, hdef⟩ hr
  · exact ⟨hboth.1.2, hboth.2⟩
  · intro t t' e' ty env v hchecks hinv hr
    obtain ⟨hdef', htag⟩ := hchecks.definite (hp e he) (hplain e he) hinv.1 hinv.2 hr
    exact ⟨⟨(hchecks.sound (hp e he) hinv.1 hr).1, hdef'⟩, htag⟩

end Reckon
