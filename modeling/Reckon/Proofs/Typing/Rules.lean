import Reckon.Typing

/-!
# Typing rules

What a successful check does, as rules: `Checks t e ty e' t'` says that under the table `t` the
expression `e` has the type `ty`, that `e'` is `e` with its types attached, and that `t'` is the
table with the variables that `e` declares.

* `checks_of_ok`, `Checks.check_eq`: checking succeeds by these rules, and only by them.
* `Checks.ty_eq`: the type of an expression is the one attached to it.
* `ChecksAll`: the same rules for programs, with `checksAll_of_ok` and `ChecksAll.check_eq`.
-/

namespace Reckon

/-! ## Signatures -/

/-- The operand types that a binary operator takes. -/
def BinarySig.Takes (sig : BinarySig) (left right : Ty) : Prop :=
  if sig.left = .any ∧ sig.right = .any then left = right else left = sig.left ∧ right = sig.right

theorem BinarySig.apply_ok {sig : BinarySig} {loc : Location} {op : BinaryOp} {left right ty : Ty}
    (h : sig.apply loc op left right = .ok ty) : sig.Takes left right ∧ ty = sig.result := by
  unfold BinarySig.apply at h
  unfold BinarySig.Takes
  split at h
  · rename_i hany
    rw [if_pos hany]
    split at h
    · rename_i heq
      cases h
      exact ⟨heq, rfl⟩
    · cases h
  · rename_i hany
    rw [if_neg hany]
    split at h
    · cases h
    · rename_i hleft
      split at h
      · cases h
      · rename_i hright
        cases h
        exact ⟨⟨Decidable.not_not.1 hleft, Decidable.not_not.1 hright⟩, rfl⟩

theorem BinarySig.apply_of_takes {sig : BinarySig} {left right : Ty} (h : sig.Takes left right)
    (loc : Location) (op : BinaryOp) : sig.apply loc op left right = .ok sig.result := by
  unfold BinarySig.Takes at h
  unfold BinarySig.apply
  split at h
  · rename_i hany
    rw [if_pos hany, if_pos h]
  · rename_i hany
    rw [if_neg hany, if_neg (not_not_intro h.1), if_neg (not_not_intro h.2)]

theorem UnarySig.apply_ok {sig : UnarySig} {loc : Location} {op : UnaryOp} {operand ty : Ty}
    (h : sig.apply loc op operand = .ok ty) : operand = sig.operand ∧ ty = sig.result := by
  unfold UnarySig.apply at h
  split at h
  · rename_i heq
    cases h
    exact ⟨heq, rfl⟩
  · cases h

/-! ## Rules -/

/-- Under `t` the expression `e` has the type `ty`; `e'` is `e` with its types, and `t'` is the
table after it. -/
inductive Checks : Table Decl → Expr → Ty → Expr → Table Decl → Prop
  | int (t : Table Decl) (l : Location) (n : Int32) : Checks t (.int l n) .int (.int l n) t
  | bool (t : Table Decl) (l : Location) (b : Bool) : Checks t (.bool l b) .bool (.bool l b) t
  | var {t : Table Decl} {l : Location} {ty₀ ty : Ty} {x : String}
      (hx : t.get? x = some (.var ty)) :
      Checks t (.var l ty₀ x) ty (.var l ty x) t
  | const {t : Table Decl} {l : Location} {ty₀ : Ty} {x : String} {b : Bool}
      (hx : t.get? x = some (.const b)) : Checks t (.var l ty₀ x) .bool (.var l .bool x) t
  | unary {t t' : Table Decl} {l : Location} {ty₀ ty : Ty} {op : UnaryOp} {e e' : Expr}
      (he : Checks t e ty e' t') (hop : ty = (t'.unarySig op).operand) :
      Checks t (.unary l ty₀ op e) (t'.unarySig op).result
        (.unary l (t'.unarySig op).result op e') t'
  | binary {t t₁ t₂ : Table Decl} {l : Location} {ty₀ tya tyb : Ty} {op : BinaryOp}
      {a a' b b' : Expr} (ha : Checks t a tya a' t₁) (hb : Checks t₁ b tyb b' t₂)
      (hop : (t₂.binarySig op).Takes tya tyb) :
      Checks t (.binary l ty₀ op a b) (t₂.binarySig op).result
        (.binary l (t₂.binarySig op).result op a' b') t₂
  | declare {t t' : Table Decl} {l l' : Location} {ty₀ ty₁ ty : Ty} {x : String} {v v' : Expr}
      (hv : Checks t v ty v' t') (hx : t'.get? x = none) :
      Checks t (.assign l ty₀ .assign (.var l' ty₁ x) v) ty
        (.assign l ty .assign (.var l' ty x) v') (t'.save x (.var ty))
  | reassign {t t' : Table Decl} {l l' : Location} {ty₀ ty₁ ty : Ty} {x : String} {v v' : Expr}
      (hv : Checks t v ty v' t') (hx : t'.get? x = some (.var ty)) :
      Checks t (.assign l ty₀ .assign (.var l' ty₁ x) v) ty
        (.assign l ty .assign (.var l' ty x) v') t'
  | compound {t t' : Table Decl} {l l' : Location} {ty₀ ty₁ ty tyv : Ty} {op : BinaryOp}
      {x : String} {v v' : Expr} (hv : Checks t v tyv v' t') (hop : op ≠ .assign)
      (hx : t'.get? x = some (.var ty)) (hsig : (t'.binarySig op).Takes ty tyv) :
      Checks t (.assign l ty₀ op (.var l' ty₁ x) v) (t'.binarySig op).result
        (.assign l (t'.binarySig op).result op (.var l' ty x) v') t'
  | print {t t' : Table Decl} {l : Location} {ty : Ty} {e e' : Expr} (he : Checks t e ty e' t') :
      Checks t (.print l e) ty (.print l e') t'

/-! ## The checker follows the rules -/

theorem checks_var {t : Table Decl} {l : Location} {ty₀ ty : Ty} {x : String}
    (h : nameType t l x = .ok ty) : Checks t (.var l ty₀ x) ty (.var l ty x) t := by
  unfold nameType at h
  split at h
  · rename_i hx
    cases h
    exact .var hx
  · rename_i hx
    cases h
    exact .const hx
  · cases h
  · cases h
  · cases h

theorem checks_assign {t t' : Table Decl} {l : Location} {ty₀ tyv : Ty} {op : BinaryOp}
    {target v v' : Expr} {a : Assignment} (hv : Checks t v tyv v' t')
    (h : assignTo t' l op target tyv = .ok a) :
    Checks t (.assign l ty₀ op target v) a.ty (.assign l a.ty op (target.retype a.target) v')
      a.table := by
  unfold assignTo at h
  split at h
  · rename_i l' ty₁ x
    split at h
    · -- a declared variable
      rename_i ty hx
      split at h
      · rename_i hop
        subst hop
        split at h
        · rename_i hty
          subst hty
          cases h
          exact .reassign hv hx
        · cases h
      · rename_i hop
        split at h
        · cases h
        · rename_i result hsig
          obtain ⟨htakes, rfl⟩ := BinarySig.apply_ok hsig
          cases h
          exact .compound hv hop hx htakes
    · cases h
    · -- a name that is not declared yet
      rename_i hx
      split at h
      · rename_i hop
        subst hop
        cases h
        exact .declare hv hx
      · cases h
  · cases h

/-- **The checker follows the rules.** -/
theorem checks_of_ok {t : Table Decl} {e : Expr} {ty : Ty} (h : (e.check t).result = .ok ty) :
    Checks t e ty (e.check t).tree (e.check t).table := by
  induction e generalizing t ty with
  | int l n => cases h; exact .int t l n
  | bool l b => cases h; exact .bool t l b
  | var l ty₀ x =>
    simp only [Expr.check] at h ⊢
    split at h
    · cases h
    · rename_i found hfound
      cases h
      exact checks_var hfound
  | unary l ty₀ op e ih =>
    simp only [Expr.check] at h ⊢
    split at h
    · cases h
    · rename_i tye he
      split at h
      · cases h
      · rename_i result hsig
        obtain ⟨hop, rfl⟩ := UnarySig.apply_ok hsig
        cases h
        exact .unary (ih he) hop
  | binary l ty₀ op a b iha ihb =>
    simp only [Expr.check] at h ⊢
    split at h
    · cases h
    · rename_i tya ha
      split at h
      · cases h
      · rename_i tyb hb
        split at h
        · cases h
        · rename_i result hsig
          obtain ⟨hop, rfl⟩ := BinarySig.apply_ok hsig
          cases h
          exact .binary (iha ha) (ihb hb) hop
  | assign l ty₀ op target v _ ih =>
    simp only [Expr.check] at h ⊢
    split at h
    · cases h
    · rename_i tyv hv
      split at h
      · cases h
      · rename_i a ha
        cases h
        exact checks_assign (ih hv) ha
  | print l e ih => exact .print (ih h)

/-- What the rules derive, the checker finds. -/
theorem Checks.check_eq {t t' : Table Decl} {e e' : Expr} {ty : Ty} (h : Checks t e ty e' t') :
    e.check t = ⟨.ok ty, e', t'⟩ := by
  induction h with
  | int | bool => rfl
  | var hx => simp only [Expr.check, nameType, hx]
  | const hx => simp only [Expr.check, nameType, hx]
  | unary _ hop ih => simp only [Expr.check, ih, UnarySig.apply, if_pos hop]
  | binary _ _ hop iha ihb => simp only [Expr.check, iha, ihb, BinarySig.apply_of_takes hop]
  | declare _ hx ih => simp only [Expr.check, ih, assignTo, hx, if_true, Expr.retype]
  | reassign _ hx ih => simp only [Expr.check, ih, assignTo, hx, if_true, Expr.retype]
  | compound _ hop hx hsig ih =>
    simp only [Expr.check, ih, assignTo, hx, if_neg hop, BinarySig.apply_of_takes hsig, Expr.retype]
  | print _ ih => simp only [Expr.check, ih]

/-- The type of an expression is the one attached to it. -/
theorem Checks.ty_eq {t t' : Table Decl} {e e' : Expr} {ty : Ty} (h : Checks t e ty e' t') :
    e'.ty = ty := by
  induction h with
  | print _ ih => exact ih
  | _ => rfl

/-- A program is checked expression by expression. -/
theorem Program.check_cons_ok {t : Table Decl} {e : Expr} {p : Program}
    (h : (Program.check t (e :: p)).result = .ok ()) :
    ∃ ty, Checks t e ty (e.check t).tree (e.check t).table ∧
      (Program.check (e.check t).table p).result = .ok () ∧
      (Program.check t (e :: p)).tree =
        (e.check t).tree :: (Program.check (e.check t).table p).tree ∧
      (Program.check t (e :: p)).table = (Program.check (e.check t).table p).table := by
  cases he : (e.check t).result with
  | error err => simp [Program.check, he] at h
  | ok ty =>
    simp only [Program.check, he] at h ⊢
    exact ⟨ty, checks_of_ok he, h, trivial, trivial⟩

/-- The expressions of a program are checked in turn, each under the table after the one before
it. -/
inductive ChecksAll : Table Decl → Program → Program → Table Decl → Prop
  | nil (t : Table Decl) : ChecksAll t [] [] t
  | cons {t t₁ t₂ : Table Decl} {e e' : Expr} {ty : Ty} {p p' : Program}
      (he : Checks t e ty e' t₁) (hp : ChecksAll t₁ p p' t₂) : ChecksAll t (e :: p) (e' :: p') t₂

theorem checksAll_of_ok {t : Table Decl} {p : Program}
    (h : (Program.check t p).result = .ok ()) :
    ChecksAll t p (Program.check t p).tree (Program.check t p).table := by
  induction p generalizing t with
  | nil => exact .nil t
  | cons e p ih =>
    obtain ⟨ty, hchecks, hcheck, htree, htable⟩ := Program.check_cons_ok h
    rw [htree, htable]
    exact .cons hchecks (ih hcheck)

theorem ChecksAll.check_eq {t t' : Table Decl} {p p' : Program} (h : ChecksAll t p p' t') :
    Program.check t p = ⟨.ok (), p', t'⟩ := by
  induction h with
  | nil => rfl
  | cons he _ ih => simp only [Program.check, he.check_eq, ih]

end Reckon
