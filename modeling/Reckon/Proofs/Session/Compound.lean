import Reckon.Proofs.Session.Invariant
import Reckon.Proofs.Session.Rollback
import Reckon.Proofs.Typing.Compound

/-!
# Compound assignments spelled out

The assignment `x op= e` does what `x = (x op e)` does, or `x = (x + e)` for `<<=` in a dialect that
adds there. Both read the old value of `x` before `e` is evaluated, so this is true also if `e`
assigns `x` itself.

* `Dialect.Combines`: the operator in the long form of a compound assignment, found by its spelling.
* `Dialect.combines_iff`: it is the one that evaluation applies.
* `Expr.eval_spelledOut`: evaluation.
* `Session.eval_congr`: programs that are checked and evaluated alike get the same reply.
* `Session.eval_updating_iff_spelledOut`: what a session does with the two assignments.
-/

namespace Reckon

/-! ## The operator of a compound assignment -/

/-- `base` is what the compound assignment `op` combines with: the operator that is written like
`op` without its equals sign, except that `<<=` adds in some dialects. -/
def Dialect.Combines (d : Dialect) (op base : BinaryOp) : Prop :=
  if op = .arithAssign .shiftLeft ∧ d.shiftLeftAssignAdds then base = .arith .add
  else op.symbol = base.symbol ++ ['=']

theorem BinaryOp.symbol_inj {a b : BinaryOp} (h : a.symbol = b.symbol) : a = b := by
  have hall : ∀ a ∈ all, ∀ b ∈ all, a.symbol = b.symbol → a = b := by decide +kernel
  exact hall a (mem_all a) b (mem_all b) h

theorem BinaryOp.symbol_compound {op : BinaryOp} (hassign : op.isAssign = true)
    (hop : op ≠ .assign) : op.symbol = op.base.symbol ++ ['='] := by
  cases op with
  | assign => exact absurd rfl hop
  | arithAssign op => cases op <;> rfl
  | logicAssign op => cases op <;> rfl
  | arith | order | equal | notEqual | logic => cases hassign

/-- **The operator that is applied** is the one that the spelling tells. -/
theorem Dialect.combines_iff {d : Dialect} {op base : BinaryOp} (hassign : op.isAssign = true)
    (hop : op ≠ .assign) : d.Combines op base ↔ base = d.updateOp op := by
  unfold Combines updateOp
  split
  · exact Iff.rfl
  · rw [BinaryOp.symbol_compound hassign hop, List.append_cancel_right_eq]
    exact ⟨fun h => BinaryOp.symbol_inj h.symm, fun h => h ▸ rfl⟩

/-! ## Evaluation -/

/-- **Evaluation.** The old value is read first and the operator is applied last, in both forms. -/
theorem Expr.eval_spelledOut {d : Dialect} {op : BinaryOp} (hop : op ≠ .assign) (env : Env)
    (l l₁ l₂ l₃ : Location) (ty : Ty) (x : String) (e : Expr) :
    (assign l ty .assign (var l₂ ty x) (binary l ty (d.updateOp op) (var l₃ ty x) e)).eval d env =
      (assign l ty op (var l₁ ty x) e).eval d env := by
  simp only [eval, Dialect.update, if_neg hop, if_true, Run.yield_andThen, Run.andThen_assoc]
  rfl

/-! ## Sessions -/

namespace Session

variable {s : Session}

/-- Programs that are checked and evaluated alike get the same reply, apart from its trace. -/
theorem eval_congr {p q p' q' : Program} {t : Table Decl}
    (hp : Program.check s.table p = ⟨.ok (), p', t⟩)
    (hq : Program.check s.table q = ⟨.ok (), q', t⟩)
    (h : Program.eval s.settings.dialect s.env p' = Program.eval s.settings.dialect s.env q') :
    (s.eval p).result = (s.eval q).result ∧ (s.eval p).session = (s.eval q).session ∧
      (s.eval p).printed = (s.eval q).printed := by
  simp only [eval, hp, hq, h]
  cases (Program.eval s.settings.dialect s.env q').result <;> exact ⟨rfl, rfl, rfl⟩

/-- **Compound assignments.** Let the operators have their standard signatures in a session, and let
`x` be a variable there. The programs `x op= e` and `x = (x base e)`, where `op` combines with
`base` and both operators are at the same location, succeed both or fail both. If they succeed, the
values, the outputs, the sessions and the types of the expressions are the same. If one fails when
it is evaluated, the other does so for the same cause at the same location. -/
theorem eval_updating_iff_spelledOut (s : Session)
    (hops : ∀ op : BinaryOp, s.table.binarySig op = op.sig) {x : String} {ty : Ty}
    (hx : s.table.get? x = some (.var ty)) {op base : BinaryOp} (hassign : op.isAssign = true)
    (hop : op ≠ .assign) (hbase : s.settings.dialect.Combines op base) (e : Expr)
    (l l₁ l₂ l₃ : Location) (p q : Program) (hp : p = [.updating l l₁ op x e])
    (hq : q = [.spelledOut l l₂ l₃ base x e]) :
    (s.eval p).isOk = (s.eval q).isOk ∧
    ((s.eval p).isOk = true →
      (s.eval p).result = (s.eval q).result ∧ (s.eval p).output = (s.eval q).output ∧
      (s.eval p).session = (s.eval q).session ∧
      (Program.check s.table p).tree.map Expr.ty = (Program.check s.table q).tree.map Expr.ty) ∧
    ∀ err, (s.eval p).result = .error (.eval err) ↔ (s.eval q).result = .error (.eval err) := by
  obtain rfl := (Dialect.combines_iff hassign hop).1 hbase
  subst hp hq
  rcases Expr.check_updating hops hx hassign hop (s.settings.dialect.sig_updateOp op) e l l₁ l₂ l₃
    with ⟨e', t', hc, hu⟩ | ⟨err, err', hc, hu⟩
  · have hcp : Program.check s.table [.updating l l₁ op x e] =
        ⟨.ok (), [.assign l ty op (.var l₁ ty x) e'], t'⟩ := by
      simp only [Program.check, hc]
    have hcq : Program.check s.table
          [.spelledOut l l₂ l₃ (s.settings.dialect.updateOp op) x e] =
        ⟨.ok (), [.assign l ty .assign (.var l₂ ty x)
          (.binary l ty (s.settings.dialect.updateOp op) (.var l₃ ty x) e')], t'⟩ := by
      simp only [Program.check, hu]
    obtain ⟨hresult, hsession, hprinted⟩ := eval_congr hcp hcq (by
      simp only [Program.eval, Program.evalFrom, Expr.eval_spelledOut hop s.env l l₁])
    refine ⟨congrArg Except.isOk hresult, fun _ => ⟨hresult, ?_, hsession, ?_⟩, fun err => ?_⟩
    · rw [Reply.output, hprinted, Reply.output]
    · rw [hcp, hcq]
      rfl
    · rw [hresult]
  · -- both are rejected, possibly for different reasons
    have hrp : s.eval [.updating l l₁ op x e] = ⟨.error (.check err), s, [], []⟩ :=
      eval_of_check_error (by simp only [Program.check, hc])
    have hrq : s.eval [.spelledOut l l₂ l₃ (s.settings.dialect.updateOp op) x e] =
        ⟨.error (.check err'), s, [], []⟩ :=
      eval_of_check_error (by simp only [Program.check, hu])
    rw [hrp, hrq]
    refine ⟨rfl, fun h => ?_, fun err => iff_of_false (fun h => ?_) (fun h => ?_)⟩ <;> cases h

private def withFive : Session :=
  ⟨.default, Decl.standard.save "x" (.var .int), Env.standard.save "x" (.int 5)⟩

private def becomesTwo : Expr :=
  .assign .nowhere .unknown .assign (.var .nowhere .unknown "x") (.int .nowhere 2)

private theorem eval_updating_becomesTwo :
    (withFive.eval [.updating .nowhere .nowhere (.arithAssign .shiftLeft) "x" becomesTwo]).result =
      .ok (.int 7) := by
  have hx : withFive.table.get? "x" = some (.var .int) := by decide +kernel
  have hsig : withFive.table.binarySig (.arithAssign .shiftLeft) = ⟨.int, .int, .int⟩ := by
    decide +kernel
  have hfive : Env.value withFive.env "x" = .int 5 := by decide +kernel
  have hseven : BinaryOp.apply withFive.settings.dialect
      (withFive.settings.dialect.updateOp (.arithAssign .shiftLeft)) (.int 5) (.int 2) =
        .ok (.int 7) := rfl
  simp [Expr.updating, becomesTwo, eval, Program.check, Expr.check, assignTo, hx, hsig,
    BinarySig.apply, Program.eval, Program.evalFrom, Expr.eval, Expr.retype, Run.andThen, Run.yield,
    Run.located, Dialect.update, hfive, hseven]

/-- Where `x` is `5` and `<<=` adds, `x <<= (x = 2)` and `x = (x + (x = 2))` both give `7`. -/
theorem eval_updating_own_target :
    (withFive.eval [.updating .nowhere .nowhere (.arithAssign .shiftLeft) "x" becomesTwo]).result =
        .ok (.int 7) ∧
      (withFive.eval [.spelledOut .nowhere .nowhere .nowhere (.arith .add) "x" becomesTwo]).result =
        .ok (.int 7) := by
  have hops : ∀ op : BinaryOp, withFive.table.binarySig op = op.sig :=
    (agree_standard.declare (x := "x") (.inl rfl) (Value.fits_int 5)).binarySig_eq
  have hx : withFive.table.get? "x" = some (.var .int) := by decide +kernel
  have hop : BinaryOp.arithAssign .shiftLeft ≠ .assign := by decide
  have hbase : withFive.settings.dialect.Combines (.arithAssign .shiftLeft) (.arith .add) :=
    (Dialect.combines_iff rfl hop).2 rfl
  obtain ⟨-, hsame, -⟩ := eval_updating_iff_spelledOut withFive hops hx rfl hop hbase becomesTwo
    .nowhere .nowhere .nowhere .nowhere _ _ rfl rfl
  have hok := Reply.isOk_iff.2 ⟨_, eval_updating_becomesTwo⟩
  exact ⟨eval_updating_becomesTwo, (hsame hok).1.symm.trans eval_updating_becomesTwo⟩

end Session

end Reckon
