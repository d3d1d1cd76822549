import Mathlib.Data.List.Forall2
import Reckon.Proofs.Evaluation
import Reckon.Proofs.Typing.Annotation
import Reckon.Proofs.Typing.Growth

/-!
# Interchangeable expressions

Two expressions are interchangeable if they are evaluated alike in every environment, pass the same
checks, and are targets of the same assignments. What they are parts of is then interchangeable,
too.

* `Expr.Passes`: an expression has a type, and its check leaves a table.
* `Expr.Interchangeable`: with `unary`, `binary`, `assign` and `print` for expressions with parts.
* `Expr.Interchangeable.mul_assoc`: a product of three can be grouped either way.
* `Program.eval_interchangeable`, `Program.passes_interchangeable`: from expressions to programs.
-/

namespace Reckon

/-! ## Checks -/

/-- Multiplication takes two words to a word. -/
def Table.MultipliesWords (t : Table Decl) : Prop := t.binarySig (.arith .mul) = ⟨.int, .int, .int⟩

theorem Table.MultipliesWords.grows {t t' : Table Decl} (h : t.MultipliesWords) (hg : Grows t t') :
    t'.MultipliesWords :=
  (hg.binarySig_eq _).trans h

namespace Expr

/-- Under `t` the expression has the type `ty`, and its check leaves `t'`. -/
def Passes (t : Table Decl) (e : Expr) (ty : Ty) (t' : Table Decl) : Prop :=
  ∃ e', Checks t e ty e' t'

theorem Passes.grows {t t' : Table Decl} {e : Expr} {ty : Ty} (h : e.Passes t ty t') :
    Grows t t' := by
  obtain ⟨e', he⟩ := h
  exact he.grows

/-- What `e` passes, `e'` passes in the same way, where multiplication takes words to words. -/
def PassesLike (e e' : Expr) : Prop :=
  ∀ t ty t', t.MultipliesWords → e.Passes t ty t' → e'.Passes t ty t'

namespace PassesLike

variable {a a' b b' e e' target target' : Expr}

theorem unary (h : e.PassesLike e') (l : Location) (ty : Ty) (op : UnaryOp) :
    (Expr.unary l ty op e).PassesLike (Expr.unary l ty op e') := by
  rintro t tye t' hmul ⟨_, hc⟩
  cases hc with
  | unary he hop =>
    obtain ⟨_, he'⟩ := h _ _ _ hmul ⟨_, he⟩
    exact ⟨_, .unary he' hop⟩

theorem binary (ha : a.PassesLike a') (hb : b.PassesLike b') (l : Location) (ty : Ty)
    (op : BinaryOp) : (Expr.binary l ty op a b).PassesLike (Expr.binary l ty op a' b') := by
  rintro t tye t' hmul ⟨_, hc⟩
  cases hc with
  | binary hca hcb hop =>
    obtain ⟨_, hca'⟩ := ha _ _ _ hmul ⟨_, hca⟩
    obtain ⟨_, hcb'⟩ := hb _ _ _ (hmul.grows hca.grows) ⟨_, hcb⟩
    exact ⟨_, .binary hca' hcb' hop⟩

theorem assign (h : e.PassesLike e')
    (ht : ∀ l ty x, target = .var l ty x → target' = .var l ty x) (l : Location) (ty : Ty)
    (op : BinaryOp) :
    (Expr.assign l ty op target e).PassesLike (Expr.assign l ty op target' e') := by
  rintro t tye t' hmul ⟨_, hc⟩
  cases hc with
  | declare hv hx =>
    obtain rfl := ht _ _ _ rfl
    obtain ⟨_, hv'⟩ := h _ _ _ hmul ⟨_, hv⟩
    exact ⟨_, .declare hv' hx⟩
  | reassign hv hx =>
    obtain rfl := ht _ _ _ rfl
    obtain ⟨_, hv'⟩ := h _ _ _ hmul ⟨_, hv⟩
    exact ⟨_, .reassign hv' hx⟩
  | compound hv hop hx hsig =>
    obtain rfl := ht _ _ _ rfl
    obtain ⟨_, hv'⟩ := h _ _ _ hmul ⟨_, hv⟩
    exact ⟨_, .compound hv' hop hx hsig⟩

theorem print (h : e.PassesLike e') (l : Location) :
    (Expr.print l e).PassesLike (Expr.print l e') := by
  rintro t tye t' hmul ⟨_, hc⟩
  cases hc with
  | print he =>
    obtain ⟨_, he'⟩ := h _ _ _ hmul ⟨_, he⟩
    exact ⟨_, .print he'⟩

end PassesLike

/-- A product is a word if both operands are, and passes in no other way. -/
theorem passes_mul_iff {t t' : Table Decl} (hmul : t.MultipliesWords) {l : Location} {ty₀ ty : Ty}
    {a b : Expr} :
    (binary l ty₀ (.arith .mul) a b).Passes t ty t' ↔
      ty = .int ∧ ∃ t₁, a.Passes t .int t₁ ∧ b.Passes t₁ .int t' := by
  constructor
  · rintro ⟨_, hc⟩
    cases hc with
    | binary ha hb hop =>
      have hsig := (hmul.grows ha.grows).grows hb.grows
      rw [hsig] at hop ⊢
      obtain ⟨rfl, rfl⟩ := hop
      exact ⟨rfl, _, ⟨_, ha⟩, ⟨_, hb⟩⟩
  · rintro ⟨rfl, t₁, ⟨a', ha⟩, ⟨b', hb⟩⟩
    have hsig := (hmul.grows ha.grows).grows hb.grows
    have hop : (t'.binarySig (.arith .mul)).Takes .int .int := by
      rw [hsig]
      exact ⟨rfl, rfl⟩
    have hc : Checks t (binary l ty₀ (.arith .mul) a b) _ _ t' := .binary ha hb hop
    rw [hsig] at hc
    exact ⟨_, hc⟩

/-- A product of three words is a word, however it is grouped. -/
theorem passes_mul_assoc {t t' : Table Decl} (hmul : t.MultipliesWords) {l m l' m' : Location}
    {ty₁ ty₂ ty₃ ty₄ ty : Ty} {a b c : Expr} :
    (binary m ty₁ (.arith .mul) (binary l ty₂ (.arith .mul) a b) c).Passes t ty t' ↔
      (binary l' ty₃ (.arith .mul) a (binary m' ty₄ (.arith .mul) b c)).Passes t ty t' := by
  rw [passes_mul_iff hmul, passes_mul_iff hmul]
  refine and_congr_right fun _ => ⟨?_, ?_⟩
  · rintro ⟨t₂, hab, hc⟩
    obtain ⟨-, t₁, ha, hb⟩ := (passes_mul_iff hmul).1 hab
    exact ⟨t₁, ha, (passes_mul_iff (hmul.grows ha.grows)).2 ⟨rfl, t₂, hb, hc⟩⟩
  · rintro ⟨t₁, ha, hbc⟩
    obtain ⟨-, t₂, hb, hc⟩ := (passes_mul_iff (hmul.grows ha.grows)).1 hbc
    exact ⟨t₂, (passes_mul_iff hmul).2 ⟨rfl, t₁, ha, hb⟩, hc⟩

/-! ## Interchange -/

/-- Expressions that nothing tells apart: evaluation, checks, and assignments that have them for
their target. -/
structure Interchangeable (e e' : Expr) : Prop where
  eval : ∀ d env, e.eval d env = e'.eval d env
  passes : e.PassesLike e'
  passes' : e'.PassesLike e
  target : ∀ l ty x, e = .var l ty x ↔ e' = .var l ty x

namespace Interchangeable

variable {a a' b b' e e' e'' target target' : Expr}

theorem refl (e : Expr) : e.Interchangeable e :=
  ⟨fun _ _ => rfl, fun _ _ _ _ h => h, fun _ _ _ _ h => h, fun _ _ _ => Iff.rfl⟩

theorem trans (h : e.Interchangeable e') (h' : e'.Interchangeable e'') : e.Interchangeable e'' where
  eval d env := (h.eval d env).trans (h'.eval d env)
  passes t ty t' hmul hp := h'.passes t ty t' hmul (h.passes t ty t' hmul hp)
  passes' t ty t' hmul hp := h.passes' t ty t' hmul (h'.passes' t ty t' hmul hp)
  target l ty x := (h.target l ty x).trans (h'.target l ty x)

theorem unary (h : e.Interchangeable e') (l : Location) (ty : Ty) (op : UnaryOp) :
    (Expr.unary l ty op e).Interchangeable (Expr.unary l ty op e') where
  eval d env := by simp only [Expr.eval, h.eval]
  passes := h.passes.unary l ty op
  passes' := h.passes'.unary l ty op
  target _ _ _ := by simp

theorem binary (ha : a.Interchangeable a') (hb : b.Interchangeable b') (l : Location) (ty : Ty)
    (op : BinaryOp) : (Expr.binary l ty op a b).Interchangeable (Expr.binary l ty op a' b') where
  eval d env := by simp only [Expr.eval, ha.eval, hb.eval]
  passes := ha.passes.binary hb.passes l ty op
  passes' := ha.passes'.binary hb.passes' l ty op
  target _ _ _ := by simp

theorem assign (ht : target.Interchangeable target') (h : e.Interchangeable e') (l : Location)
    (ty : Ty) (op : BinaryOp) :
    (Expr.assign l ty op target e).Interchangeable (Expr.assign l ty op target' e') where
  eval d env := by
    by_cases hvar : ∃ l' ty' x, target = .var l' ty' x
    · obtain ⟨l', ty', x, rfl⟩ := hvar
      rw [(ht.target l' ty' x).1 rfl]
      simp only [Expr.eval, h.eval]
    · have hvar' : ¬ ∃ l' ty' x, target' = .var l' ty' x := by
        rintro ⟨l', ty', x, hx⟩
        exact hvar ⟨l', ty', x, (ht.target l' ty' x).2 hx⟩
      have hskip : ∀ {target e : Expr}, (¬ ∃ l' ty' x, target = .var l' ty' x) →
          (Expr.assign l ty op target e).eval d env = .yield env .unit := by
        intro target e hnot
        cases target with
        | var l' ty' x => exact absurd ⟨l', ty', x, rfl⟩ hnot
        | _ => rfl
      rw [hskip hvar, hskip hvar']
  passes := h.passes.assign (fun _ _ _ => (ht.target _ _ _).1) l ty op
  passes' := h.passes'.assign (fun _ _ _ => (ht.target _ _ _).2) l ty op
  target _ _ _ := by simp

theorem print (h : e.Interchangeable e') (l : Location) :
    (Expr.print l e).Interchangeable (Expr.print l e') where
  eval d env := by simp only [Expr.eval, h.eval]
  passes := h.passes.print l
  passes' := h.passes'.print l
  target _ _ _ := by simp

end Interchangeable

/-! ## Products -/

theorem onWords_mul_assoc (x y z : Value) :
    Value.onWords ArithOp.mul.word (Value.onWords ArithOp.mul.word x y) z =
      Value.onWords ArithOp.mul.word x (Value.onWords ArithOp.mul.word y z) := by
  cases x <;> cases y <;> cases z <;> simp [Value.onWords, ArithOp.word, Int32.mul_assoc]

/-- A product never fails. -/
theorem eval_mul (d : Dialect) (env : Env) (l : Location) (ty : Ty) (a b : Expr) :
    (binary l ty (.arith .mul) a b).eval d env =
      (a.eval d env).andThen fun x env => (b.eval d env).andThen fun y env =>
        .yield env (Value.onWords ArithOp.mul.word x y) := rfl

theorem eval_mul_assoc (d : Dialect) (env : Env) (l m l' m' : Location) (ty₁ ty₂ ty₃ ty₄ : Ty)
    (a b c : Expr) :
    (binary m ty₁ (.arith .mul) (binary l ty₂ (.arith .mul) a b) c).eval d env =
      (binary l' ty₃ (.arith .mul) a (binary m' ty₄ (.arith .mul) b c)).eval d env := by
  simp only [eval_mul, Run.andThen_assoc, Run.yield_andThen, onWords_mul_assoc]

/-- **Products of three.** The operands are evaluated in the same order, and no product fails. -/
theorem Interchangeable.mul_assoc (l m : Location) (ty ty' : Ty) (a b c : Expr) :
    (Expr.binary m ty (.arith .mul) (Expr.binary l ty' (.arith .mul) a b) c).Interchangeable
      (Expr.binary l ty' (.arith .mul) a (Expr.binary m ty (.arith .mul) b c)) where
  eval d env := eval_mul_assoc d env l m l m ty ty' ty' ty a b c
  passes _ _ _ hmul := (passes_mul_assoc hmul).1
  passes' _ _ _ hmul := (passes_mul_assoc hmul).2
  target _ _ _ := by simp

end Expr

/-! ## Programs -/

namespace Program

variable {p p' : Program}

theorem eval_interchangeable (h : List.Forall₂ Expr.Interchangeable p p') (d : Dialect)
    (env : Env) : Program.eval d env p = Program.eval d env p' := by
  unfold Program.eval
  generalize Value.unit = last
  induction h generalizing last env with
  | nil => rfl
  | cons he _ ih => simp only [Program.evalFrom, he.eval, ih]

theorem passes_interchangeable (h : List.Forall₂ Expr.PassesLike p p') {t t' : Table Decl}
    (hmul : t.MultipliesWords) {q : Program} (hc : ChecksAll t p q t') :
    ∃ q', ChecksAll t p' q' t' := by
  induction h generalizing t q with
  | nil => exact ⟨_, hc⟩
  | cons he _ ih =>
    cases hc with
    | cons hce hcp =>
      obtain ⟨_, hce'⟩ := he _ _ _ hmul ⟨_, hce⟩
      obtain ⟨_, hcp'⟩ := ih (hmul.grows hce.grows) hcp
      exact ⟨_, .cons hce' hcp'⟩

end Program

end Reckon
