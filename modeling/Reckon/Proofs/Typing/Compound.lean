import Reckon.Proofs.Typing.Growth
import Reckon.Proofs.Typing.Soundness

/-!
# Checking compound assignments

The value of an assignment is checked before its target is looked up. So a compound assignment
`x op= e` finds `x` declared if it was declared before, and also if `e` declares it. Where `x` was
declared before, the assignment is checked like `x = (x op e)`.

* `Expr.check_compound_of_unbound`: a compound assignment to a name that is declared neither before
  it nor by its value is rejected.
* `Expr.updating`, `Expr.spelledOut`: the assignments `x op= e` and `x = (x op e)`.
* `Expr.check_updating`: they are typed alike, or rejected both.
-/

namespace Reckon

namespace Expr

variable {t : Table Decl} {x : String} {op : BinaryOp}

/-! ## Names that are not declared -/

/-- **Undeclared targets.** If `x` is not declared and `e` does not plainly assign it, then
`x op= e` is rejected: for an error in `e`, or else because `x` is unknown. -/
theorem check_compound_of_unbound (hx : t.get? x = none) (hop : op ≠ .assign) {e : Expr}
    (he : x ∉ e.assigned) (l l' : Location) (ty ty' : Ty) :
    ∃ err, ((assign l ty op (var l' ty' x) e).check t).result = .error err ∧
      ((e.check t).result = .error err ∨ err = ⟨l', .unknownName x⟩) := by
  cases hr : (e.check t).result with
  | error err => exact ⟨err, by simp only [check, hr], .inl rfl⟩
  | ok tye =>
    have hx' : (e.check t).table.get? x = none :=
      ((checks_of_ok hr).get?_eq_of_notMem he).trans hx
    exact ⟨⟨l', .unknownName x⟩, by simp only [check, hr, assignTo, hx', if_neg hop], .inr rfl⟩

/-- `x += 1` is rejected, where `x` is not declared. -/
theorem check_compound_literal :
    ∃ err, ((assign .nowhere .unknown (.arithAssign .add) (var .nowhere .unknown "x")
      (int .nowhere 1)).check Decl.standard).result = .error err := by
  have hx : Decl.standard.get? "x" = none := by decide +kernel
  have hop : BinaryOp.arithAssign .add ≠ .assign := by decide
  have hassigned : "x" ∉ (int .nowhere 1).assigned := by simp
  obtain ⟨err, herr, -⟩ :=
    check_compound_of_unbound hx hop hassigned .nowhere .nowhere .unknown .unknown
  exact ⟨err, herr⟩

/-- `x += (x = 1)` is accepted, although `x` is not declared: its value declares `x`. -/
theorem check_compound_own_declaration :
    Decl.standard.get? "x" = none ∧
      ((assign .nowhere .unknown (.arithAssign .add) (var .nowhere .unknown "x")
        (assign .nowhere .unknown .assign (var .nowhere .unknown "x") (int .nowhere 1))).check
          Decl.standard).result = .ok .int := by
  have hx : Decl.standard.get? "x" = none := by decide +kernel
  have hadd : (Decl.standard.save "x" (.var .int)).binarySig (.arithAssign .add) =
      ⟨.int, .int, .int⟩ := by
    decide +kernel
  refine ⟨hx, ?_⟩
  simp [check, assignTo, hx, Table.get?_save, hadd, BinarySig.apply]

/-! ## Names that are declared -/

/-- The assignment `x op= e`, with its operator at `l`. -/
def updating (l l' : Location) (op : BinaryOp) (x : String) (e : Expr) : Expr :=
  assign l .unknown op (var l' .unknown x) e

/-- The assignment `x = (x op e)`, with both operators at `l`. -/
def spelledOut (l l₁ l₂ : Location) (op : BinaryOp) (x : String) (e : Expr) : Expr :=
  assign l .unknown .assign (var l₁ .unknown x) (binary l .unknown op (var l₂ .unknown x) e)

end Expr

theorem BinarySig.apply_error {sig : BinarySig} {left right : Ty} (h : ¬ sig.Takes left right)
    (loc : Location) (op : BinaryOp) : ∃ err, sig.apply loc op left right = .error err := by
  cases hr : sig.apply loc op left right with
  | error err => exact ⟨err, rfl⟩
  | ok ty => exact absurd (BinarySig.apply_ok hr).1 h

namespace Expr

variable {t : Table Decl} {x : String} {ty tye : Ty} {op base : BinaryOp} {e : Expr}

/-- Both assignments are typed, if the operator takes what stands on its sides. -/
theorem checks_updating (hx : t.get? x = some (.var ty)) (hassign : op.isAssign = true)
    (hop : op ≠ .assign) {e' : Expr} {t' : Table Decl} (he : Checks t e tye e' t')
    (hsig : t'.binarySig op = op.sig) (hsig' : t'.binarySig base = op.sig)
    (htakes : op.sig.Takes ty tye) (l l₁ l₂ l₃ : Location) :
    Checks t (updating l l₁ op x e) ty (assign l ty op (var l₁ ty x) e') t' ∧
      Checks t (spelledOut l l₂ l₃ base x e) ty
        (assign l ty .assign (var l₂ ty x) (binary l ty base (var l₃ ty x) e')) t' := by
  have hx' := he.grows.get?_eq hx
  have hresult : op.sig.result = ty := BinaryOp.result_eq_of_takes hop hassign htakes
  have hcompound : Checks t (updating l l₁ op x e) (t'.binarySig op).result
      (assign l (t'.binarySig op).result op (var l₁ ty x) e') t' :=
    .compound he hop hx' (hsig.symm ▸ htakes)
  have hbinary : Checks t (binary l .unknown base (var l₃ .unknown x) e) (t'.binarySig base).result
      (binary l (t'.binarySig base).result base (var l₃ ty x) e') t' :=
    .binary (.var hx) he (hsig'.symm ▸ htakes)
  rw [hsig, hresult] at hcompound
  rw [hsig', hresult] at hbinary
  exact ⟨hcompound, .reassign hbinary hx'⟩

/-- **Checking.** `x op= e` and `x = (x base e)`, where `x` is a variable and `base` has the
signature of `op`, have the same type and leave the same table; or they are both rejected. -/
theorem check_updating (hops : ∀ op : BinaryOp, t.binarySig op = op.sig)
    (hx : t.get? x = some (.var ty)) (hassign : op.isAssign = true) (hop : op ≠ .assign)
    (hbase : base.sig = op.sig) (e : Expr) (l l₁ l₂ l₃ : Location) :
    (∃ e' t', (updating l l₁ op x e).check t = ⟨.ok ty, assign l ty op (var l₁ ty x) e', t'⟩ ∧
      (spelledOut l l₂ l₃ base x e).check t =
        ⟨.ok ty, assign l ty .assign (var l₂ ty x) (binary l ty base (var l₃ ty x) e'), t'⟩) ∨
    ∃ err err', ((updating l l₁ op x e).check t).result = .error err ∧
      ((spelledOut l l₂ l₃ base x e).check t).result = .error err' := by
  cases hr : (e.check t).result with
  | error err =>
    exact .inr ⟨err, err, by simp only [updating, check, hr],
      by simp only [spelledOut, check, nameType, hx, hr]⟩
  | ok tye =>
    have he := checks_of_ok hr
    have hsig := (he.grows.binarySig_eq op).trans (hops op)
    have hsig' := (he.grows.binarySig_eq base).trans ((hops base).trans hbase)
    by_cases htakes : op.sig.Takes ty tye
    · obtain ⟨hupdating, hspelled⟩ :=
        checks_updating hx hassign hop he hsig hsig' htakes l l₁ l₂ l₃
      exact .inl ⟨_, _, hupdating.check_eq, hspelled.check_eq⟩
    · -- the operator is refused in both forms, each time under its own name
      have hx' := he.grows.get?_eq hx
      obtain ⟨err, herr⟩ := BinarySig.apply_error htakes l op
      obtain ⟨err', herr'⟩ := BinarySig.apply_error htakes l base
      refine .inr ⟨err, err', ?_, ?_⟩
      · simp only [updating, check, hr, assignTo, hx', if_neg hop, hsig, herr]
      · simp only [spelledOut, check, nameType, hx, hr, hsig', herr']

end Expr

end Reckon
