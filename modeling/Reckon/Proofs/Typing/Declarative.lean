import Reckon.Proofs.Typing.Annotation
import Reckon.Proofs.Typing.Growth
import Reckon.Proofs.Typing.Soundness

/-!
# Declarative typing

Checking declares variables on its way and types an expression under what is declared so far. Here
the two are kept apart: an expression is typed under one table that declares all its variables, and
a name may be used only where it is bound from the start or assigned earlier.

* `HasType G e ty`: typing under the declarations of `G`.
* `Expr.accesses`, `Resolved`: the names that an expression uses and defines, in the order of
  checking, and that none is used too early.
* `Table.Regular`: tables with one level, the standard operators, and variables for values.
* `Program.TypedBy`: typing for a program that needs the variables of a larger table.
-/

namespace Reckon

/-! ## Typing under one table -/

/-- Under the declarations of `G` the expression `e` has the type `ty`. -/
inductive HasType (G : Table Decl) : Expr → Ty → Prop
  | int (l : Location) (n : Int32) : HasType G (.int l n) .int
  | bool (l : Location) (b : Bool) : HasType G (.bool l b) .bool
  | var {l : Location} {ty₀ ty : Ty} {x : String} (hx : G.get? x = some (.var ty)) :
      HasType G (.var l ty₀ x) ty
  | const {l : Location} {ty₀ : Ty} {x : String} {b : Bool} (hx : G.get? x = some (.const b)) :
      HasType G (.var l ty₀ x) .bool
  | unary {l : Location} {ty₀ : Ty} {op : UnaryOp} {sig : UnarySig} {e : Expr}
      (hop : G.get? op.name = some (.unary sig)) (he : HasType G e sig.operand) :
      HasType G (.unary l ty₀ op e) sig.result
  | binary {l : Location} {ty₀ tya tyb : Ty} {op : BinaryOp} {sig : BinarySig} {a b : Expr}
      (hop : G.get? op.name = some (.binary sig)) (ha : HasType G a tya) (hb : HasType G b tyb)
      (htakes : sig.Takes tya tyb) : HasType G (.binary l ty₀ op a b) sig.result
  | assign {l l' : Location} {ty₀ ty₁ ty : Ty} {x : String} {v : Expr}
      (hx : G.get? x = some (.var ty)) (hv : HasType G v ty) :
      HasType G (.assign l ty₀ .assign (.var l' ty₁ x) v) ty
  | compound {l l' : Location} {ty₀ ty₁ ty tyv : Ty} {op : BinaryOp} {sig : BinarySig} {x : String}
      {v : Expr} (hop : op ≠ .assign) (hsig : G.get? op.name = some (.binary sig))
      (hx : G.get? x = some (.var ty)) (hv : HasType G v tyv) (htakes : sig.Takes ty tyv) :
      HasType G (.assign l ty₀ op (.var l' ty₁ x) v) sig.result
  | print {l : Location} {ty : Ty} {e : Expr} (he : HasType G e ty) : HasType G (.print l e) ty

/-- Every declaration of `t` is one of `t'`. -/
def Table.Within (t t' : Table Decl) : Prop := ∀ x d, t.get? x = some d → t'.get? x = some d

theorem Grows.within {t t' : Table Decl} (h : Grows t t') : t.Within t' :=
  fun _ _ hx => h.get?_eq hx

/-- More declarations do not take a type away. -/
theorem HasType.mono {G G' : Table Decl} {e : Expr} {ty : Ty} (h : HasType G e ty)
    (hG : G.Within G') : HasType G' e ty := by
  induction h with
  | int l n => exact .int l n
  | bool l b => exact .bool l b
  | var hx => exact .var (hG _ _ hx)
  | const hx => exact .const (hG _ _ hx)
  | unary hop _ ih => exact .unary (hG _ _ hop) ih
  | binary hop _ _ htakes iha ihb => exact .binary (hG _ _ hop) iha ihb htakes
  | assign hx _ ih => exact .assign (hG _ _ hx) ih
  | compound hop hsig hx _ htakes ih => exact .compound hop (hG _ _ hsig) (hG _ _ hx) ih htakes
  | print _ ih => exact .print ih

/-- Typing reads no attached types. -/
theorem HasType.of_untyped {G : Table Decl} {e : Expr} {ty : Ty} (h : HasType G e.untyped ty) :
    HasType G e ty := by
  induction e generalizing ty with
  | int | bool => exact h
  | var =>
    cases h with
    | var hx => exact .var hx
    | const hx => exact .const hx
  | unary _ _ _ _ ih =>
    cases h with
    | unary hop he => exact .unary hop (ih he)
  | binary _ _ _ _ _ iha ihb =>
    cases h with
    | binary hop ha hb htakes => exact .binary hop (iha ha) (ihb hb) htakes
  | assign _ _ _ target _ _ ih =>
    cases target with
    | var =>
      cases h with
      | assign hx hv => exact .assign hx (ih hv)
      | compound hop hsig hx hv htakes => exact .compound hop hsig hx (ih hv) htakes
    | _ => cases h
  | print _ _ ih =>
    cases h with
    | print he => exact .print (ih he)

theorem HasType.untyped {G : Table Decl} {e : Expr} {ty : Ty} (h : HasType G e ty) :
    HasType G e.untyped ty := by
  induction h with
  | int l n => exact .int l n
  | bool l b => exact .bool l b
  | var hx => exact .var hx
  | const hx => exact .const hx
  | unary hop _ ih => exact .unary hop ih
  | binary hop _ _ htakes iha ihb => exact .binary hop iha ihb htakes
  | assign hx _ ih => exact .assign hx ih
  | compound hop hsig hx _ htakes ih => exact .compound hop hsig hx ih htakes
  | print _ ih => exact .print ih

/-! ## Order of names -/

/-- What an expression does with a name. -/
inductive Access
  | use (x : String)
  | define (x : String)
deriving DecidableEq, Repr

/-- The names that an expression uses and defines, in the order of checking: left operands before
right ones, and the value of an assignment before its target. A plain assignment defines its target,
and a compound one uses it. -/
def Expr.accesses : Expr → List Access
  | int _ _ | bool _ _ => []
  | var _ _ x => [.use x]
  | unary _ _ _ e | print _ e => e.accesses
  | binary _ _ _ a b => a.accesses ++ b.accesses
  | assign _ _ op (var _ _ x) v => v.accesses ++ [if op = .assign then .define x else .use x]
  | assign _ _ _ target v => v.accesses ++ target.accesses

/-- Every name that is used is bound, or defined earlier. -/
def Resolved (bound : String → Prop) (as : List Access) : Prop :=
  ∀ before x after, as = before ++ .use x :: after → bound x ∨ .define x ∈ before

section Resolved

variable {bound bound' : String → Prop} {as bs : List Access} {x : String}

theorem resolved_nil : Resolved bound [] := by
  intro before y after h
  simp at h

theorem resolved_define : Resolved bound [.define x] := by
  intro before y after h
  cases before with
  | nil => simp at h
  | cons a before => simp at h

theorem resolved_use_iff : Resolved bound [.use x] ↔ bound x := by
  constructor
  · intro h
    rcases h [] x [] rfl with hx | hx
    · exact hx
    · cases hx
  · intro hx before y after h
    cases before with
    | nil => simp at h; exact .inl (h.1 ▸ hx)
    | cons a before => simp at h

theorem Resolved.imp (h : Resolved bound as) (hb : ∀ y, bound y → bound' y) :
    Resolved bound' as :=
  fun before y after heq => (h before y after heq).imp_left (hb y)

/-- The names that the first part defines may be used in the second. -/
theorem resolved_append_iff :
    Resolved bound (as ++ bs) ↔
      Resolved bound as ∧ Resolved (fun y => bound y ∨ .define y ∈ as) bs := by
  constructor
  · intro h
    refine ⟨fun before y after heq => ?_, fun before y after heq => ?_⟩
    · exact h before y (after ++ bs) (by simp [heq])
    · have hy := h (as ++ before) y after (by simp [heq])
      rwa [List.mem_append, ← or_assoc] at hy
  · rintro ⟨has, hbs⟩ before y after heq
    rcases List.append_eq_append_iff.1 heq with ⟨mid, rfl, hmid⟩ | ⟨mid, hmid, heq'⟩
    · rw [List.mem_append, ← or_assoc]
      exact hbs mid y after hmid
    · cases mid with
      | nil =>
        rw [List.append_nil] at hmid
        have hy := hbs [] y after (by simpa using heq'.symm)
        simpa [hmid] using hy
      | cons a mid =>
        obtain ⟨rfl, -⟩ := List.cons.inj heq'
        exact has before y mid hmid

end Resolved

section Targets

variable {l : Location} {ty : Ty} {op : BinaryOp} {target v : Expr}

theorem Expr.assigned_of_target_ne_var (h : ∀ l' ty' x, target ≠ var l' ty' x) :
    (assign l ty op target v).assigned = target.assigned ++ v.assigned := by
  have hnone : assigned? (assign l ty op target v) = none := by
    cases target with
    | var => exact absurd rfl (h _ _ _)
    | _ => cases op <;> rfl
  exact (List.filterMap_cons_none hnone).trans List.filterMap_append

theorem Expr.accesses_of_target_ne_var (h : ∀ l' ty' x, target ≠ var l' ty' x) :
    (assign l ty op target v).accesses = v.accesses ++ target.accesses := by
  cases target with
  | var => exact absurd rfl (h _ _ _)
  | _ => rfl

end Targets

/-- The names that are defined are the assigned ones. -/
theorem Expr.define_mem_accesses_iff {x : String} {e : Expr} :
    .define x ∈ e.accesses ↔ x ∈ e.assigned := by
  induction e with
  | int | bool | var => simp [accesses]
  | unary _ _ _ _ ih => simpa [accesses] using ih
  | binary _ _ _ _ _ iha ihb => simp [accesses, iha, ihb]
  | assign l ty op target v iht ihv =>
    by_cases htarget : ∃ l' ty' y, target = var l' ty' y
    · obtain ⟨l', ty', y, rfl⟩ := htarget
      by_cases hop : op = .assign
      · subst hop
        simp [accesses, ihv, or_comm]
      · simp [accesses, assigned_compound hop, hop, ihv]
    · have hne : ∀ l' ty' y, target ≠ var l' ty' y :=
        fun l' ty' y heq => htarget ⟨l', ty', y, heq⟩
      simp [accesses_of_target_ne_var hne, assigned_of_target_ne_var hne, iht, ihv, or_comm]
  | print _ _ ih => simpa [accesses] using ih

/-! ## Tables -/

/-- The operators are declared with their standard signatures. -/
structure Table.Operators (t : Table Decl) : Prop where
  unary : ∀ op : UnaryOp, t.get? op.name = some (.unary op.sig)
  binary : ∀ op : BinaryOp, t.get? op.name = some (.binary op.sig)

/-- One level, the standard operators, and variables of the types that values are of. -/
structure Table.Regular (t : Table Decl) : Prop extends t.Operators where
  flat : t.depth = 0
  data : ∀ {x ty}, t.get? x = some (.var ty) → ty.IsData

namespace Table

variable {t t' G : Table Decl}

theorem Operators.unarySig_eq (h : t.Operators) (op : UnaryOp) : t.unarySig op = op.sig := by
  rw [Table.unarySig, h.unary]

theorem Operators.binarySig_eq (h : t.Operators) (op : BinaryOp) : t.binarySig op = op.sig := by
  rw [Table.binarySig, h.binary]

theorem Operators.within (h : t.Operators) (ht : t.Within t') : t'.Operators :=
  ⟨fun op => ht _ _ (h.unary op), fun op => ht _ _ (h.binary op)⟩

/-- The signature of an operator in a larger table is its standard one. -/
theorem Operators.eq_unarySig (h : t.Operators) (ht : t.Within G) {op : UnaryOp} {sig : UnarySig}
    (hop : G.get? op.name = some (.unary sig)) : sig = t.unarySig op := by
  have hsig := (h.within ht).unary op
  rw [hop] at hsig
  cases hsig
  exact (h.unarySig_eq op).symm

theorem Operators.eq_binarySig (h : t.Operators) (ht : t.Within G) {op : BinaryOp}
    {sig : BinarySig} (hop : G.get? op.name = some (.binary sig)) : sig = t.binarySig op := by
  have hsig := (h.within ht).binary op
  rw [hop] at hsig
  cases hsig
  exact (h.binarySig_eq op).symm

/-- A new variable of a type of values. -/
theorem Regular.declare (h : t.Regular) {x : String} {ty : Ty} (hx : t.get? x = none)
    (hty : ty.IsData) : (t.save x (.var ty)).Regular where
  toOperators := h.toOperators.within (Grows.declare (.refl t) hx).within
  flat := (depth_save t x _).trans h.flat
  data {y ty'} hy := by
    rw [get?_save] at hy
    split at hy
    · cases hy; exact hty
    · exact h.data hy

/-- A table with one level is determined by what names mean in it. -/
theorem ext_of_flat (ht : t.depth = 0) (ht' : t'.depth = 0) (h : ∀ x, t.get? x = t'.get? x) :
    t = t' := by
  obtain ⟨inner, outer⟩ := t
  obtain ⟨inner', outer'⟩ := t'
  obtain rfl := List.length_eq_zero_iff.1 ht
  obtain rfl := List.length_eq_zero_iff.1 ht'
  have hget : ∀ l : Level Decl, ∀ x, (⟨[], l⟩ : Table Decl).get? x = l.get? x := by
    intro l x
    simp only [get?, levels, List.nil_append, lookup?]
    cases l.get? x <;> rfl
  have houter : outer = outer' := Level.ext_get? fun x => by rw [← hget, ← hget, h]
  rw [houter]

end Table

/-! ## Programs -/

/-- The names that plain assignments in a program assign. -/
def Program.assigned (p : Program) : List String := p.flatMap Expr.assigned

/-- The names that a program uses and defines, in the order of checking. -/
def Program.accesses (p : Program) : List Access := p.flatMap Expr.accesses

/-- `G'` declares what `G` declares and, as variables of types that values are of, exactly those of
the names that `G` does not bind. -/
structure Table.ExtendedBy (G : Table Decl) (names : List String) (G' : Table Decl) : Prop where
  flat : G'.depth = 0
  keeps : G.Within G'
  declares : ∀ x ∈ names, G.get? x = none → ∃ ty, ty.IsData ∧ G'.get? x = some (.var ty)
  nothing_else : ∀ x ∉ names, G.get? x = none → G'.get? x = none

/-- The program is typed under `G'`, which declares its variables in addition to `G`, and uses no
name before it is assigned, unless `G` binds it. -/
structure Program.TypedBy (p : Program) (G G' : Table Decl) : Prop where
  extension : G.ExtendedBy p.assigned G'
  typed : ∀ e ∈ p, ∃ ty, HasType G' e ty
  resolved : Resolved G.Binds p.accesses

end Reckon
