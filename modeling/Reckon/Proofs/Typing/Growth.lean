import Reckon.Proofs.Expr.Parts
import Reckon.Proofs.Typing.Rules

/-!
# Growing tables

Checking adds variables to a table and changes nothing else in it, whether it succeeds or stops at
an error. If it succeeds, the variables that it has added are the assigned ones.

* `Grows t t'`: `t'` is `t` with some variables that were not declared before.
* `Expr.check_grows`, `Program.check_grows`: every check leaves a table that has grown.
* `Checks.binds_iff`: the names that are bound after a successful check.
-/

namespace Reckon

/-! ## Bound names -/

namespace Table

variable {α : Type}

/-- A name has a meaning in a table. -/
def Binds (t : Table α) (x : String) : Prop := ∃ v, t.get? x = some v

theorem not_binds_iff {t : Table α} {x : String} : ¬ t.Binds x ↔ t.get? x = none := by
  unfold Binds
  cases t.get? x <;> simp

theorem binds_save {t : Table α} {x y : String} {v : α} :
    (t.save x v).Binds y ↔ t.Binds y ∨ y = x := by
  unfold Binds
  rw [get?_save]
  by_cases h : y = x
  · simp [h]
  · simp [h]

end Table

/-! ## Growth -/

/-- Some names are declared as variables, none of which was declared before. -/
inductive Grows : Table Decl → Table Decl → Prop
  | refl (t : Table Decl) : Grows t t
  | declare {t t' : Table Decl} {x : String} {ty : Ty} (h : Grows t t') (hx : t'.get? x = none) :
      Grows t (t'.save x (.var ty))

namespace Grows

variable {t t' t'' : Table Decl}

theorem trans (h : Grows t t') (h' : Grows t' t'') : Grows t t'' := by
  induction h' with
  | refl => exact h
  | declare _ hx ih => exact .declare ih hx

/-- What is declared stays declared as it is. -/
theorem get?_eq {x : String} {d : Decl} (h : Grows t t') (hx : t.get? x = some d) :
    t'.get? x = some d := by
  induction h with
  | refl => exact hx
  | @declare t' y ty _ hy ih =>
    have hne : x ≠ y := by
      rintro rfl
      rw [hy] at ih
      cases ih
    rw [Table.get?_save, if_neg hne]
    exact ih

/-- What is new is a variable. -/
theorem var_of_new {x : String} {d : Decl} (h : Grows t t') (hx : t.get? x = none)
    (hd : t'.get? x = some d) : ∃ ty, d = .var ty := by
  induction h with
  | refl => rw [hx] at hd; cases hd
  | @declare _ y ty _ _ ih =>
    rw [Table.get?_save] at hd
    split at hd
    · cases hd; exact ⟨ty, rfl⟩
    · exact ih hd

/-- A name means what it meant before, or it is a new variable. -/
theorem get?_cases (h : Grows t t') (x : String) :
    t'.get? x = t.get? x ∨ t.get? x = none ∧ ∃ ty, t'.get? x = some (.var ty) := by
  cases hd : t.get? x with
  | some d => exact .inl (h.get?_eq hd)
  | none =>
    cases hd' : t'.get? x with
    | none => exact .inl rfl
    | some d =>
      obtain ⟨ty, rfl⟩ := h.var_of_new hd hd'
      exact .inr ⟨rfl, ty, rfl⟩

/-- The unary operators keep their signatures, also if a variable has the name of one. -/
theorem unarySig_eq (h : Grows t t') (op : UnaryOp) : t'.unarySig op = t.unarySig op := by
  unfold Table.unarySig
  rcases h.get?_cases op.name with heq | ⟨hnone, ty, hvar⟩
  · rw [heq]
  · rw [hnone, hvar]

/-- So do the binary operators. -/
theorem binarySig_eq (h : Grows t t') (op : BinaryOp) : t'.binarySig op = t.binarySig op := by
  unfold Table.binarySig
  rcases h.get?_cases op.name with heq | ⟨hnone, ty, hvar⟩
  · rw [heq]
  · rw [hnone, hvar]

theorem depth_eq (h : Grows t t') : t'.depth = t.depth := by
  induction h with
  | refl => rfl
  | declare _ _ ih => exact (Table.depth_save _ _ _).trans ih

end Grows

theorem assignTo_grows {t : Table Decl} {l : Location} {op : BinaryOp} {target : Expr} {ty : Ty}
    {a : Assignment} (h : assignTo t l op target ty = .ok a) : Grows t a.table := by
  unfold assignTo at h
  split at h
  · split at h
    · split at h
      · split at h
        · cases h; exact .refl t
        · cases h
      · split at h
        · cases h
        · cases h; exact .refl t
    · cases h
    · rename_i hx
      split at h
      · cases h; exact .declare (.refl t) hx
      · cases h
  · cases h

/-- **Checking grows the table**, also if it stops at an error. -/
theorem Expr.check_grows (t : Table Decl) (e : Expr) : Grows t (e.check t).table := by
  induction e generalizing t with
  | int | bool => exact .refl t
  | var l ty x =>
    simp only [check]
    split <;> exact .refl t
  | unary l ty op e ih =>
    simp only [check]
    split
    · exact ih t
    · split <;> exact ih t
  | binary l ty op a b iha ihb =>
    have hab := (iha t).trans (ihb (a.check t).table)
    simp only [check]
    split
    · exact iha t
    · split
      · exact hab
      · split <;> exact hab
  | assign l ty op target v _ ih =>
    simp only [check]
    split
    · exact ih t
    · split
      · exact ih t
      · rename_i ha
        exact (ih t).trans (assignTo_grows ha)
  | print l e ih => exact ih t

theorem Program.check_grows (t : Table Decl) (p : Program) : Grows t (Program.check t p).table := by
  induction p generalizing t with
  | nil => exact .refl t
  | cons e p ih =>
    simp only [Program.check]
    split
    · exact e.check_grows t
    · exact (e.check_grows t).trans (ih _)

/-! ## Successful checks -/

namespace Checks

variable {t t' : Table Decl} {e e' : Expr} {ty : Ty}

theorem grows (h : Checks t e ty e' t') : Grows t t' := by
  have hgrows := e.check_grows t
  rwa [h.check_eq] at hgrows

/-- **Bound names.** After a successful check the names are bound that were bound before it, and
those that a plain assignment assigns. -/
theorem binds_iff {x : String} (h : Checks t e ty e' t') :
    t'.Binds x ↔ t.Binds x ∨ x ∈ e.assigned := by
  induction h with
  | int | bool | var | const => simp
  | unary _ _ ih => simpa using ih
  | binary _ _ _ iha ihb => simp [ihb, iha, or_assoc]
  | declare _ _ ih => simp [Table.binds_save, ih, or_assoc, or_comm]
  | @reassign t₀ t₁ _ _ _ _ ty y v _ _ hy ih =>
    -- the target is bound already, so the assignment adds nothing
    have hbound : x = y → t₀.Binds x ∨ x ∈ v.assigned := by
      rintro rfl
      exact ih.1 ⟨.var ty, hy⟩
    simp only [Expr.assigned_assign, List.mem_cons, ih]
    grind
  | compound _ hop _ _ ih => rw [Expr.assigned_compound hop]; exact ih
  | print _ ih => simpa using ih

/-- A name that is not assigned means what it meant before. -/
theorem get?_eq_of_notMem {x : String} (h : Checks t e ty e' t') (hx : x ∉ e.assigned) :
    t'.get? x = t.get? x := by
  cases hd : t.get? x with
  | some d => exact h.grows.get?_eq hd
  | none =>
    refine Table.not_binds_iff.1 fun hbinds => ?_
    rcases h.binds_iff.1 hbinds with hbinds | hmem
    · exact Table.not_binds_iff.2 hd hbinds
    · exact hx hmem

end Checks

theorem ChecksAll.grows {t t' : Table Decl} {p p' : Program} (h : ChecksAll t p p' t') :
    Grows t t' := by
  have hgrows := Program.check_grows t p
  rwa [h.check_eq] at hgrows

end Reckon
