import Reckon.Proofs.Typing.Declarative

/-!
# Checking decides typing

A check of a program under a regular table succeeds exactly if some larger table types the program,
and it leaves this table and these types.

* `Checks.hasType`, `HasType.checks`: the two directions for expressions.
* `Checks.parts_annotated`: the types that a check attaches.
* `ChecksAll.typedBy`, `Program.TypedBy.checksAll`: the two directions for programs.
-/

namespace Reckon

/-! ## Checked expressions are typed -/

namespace Checks

variable {t t' : Table Decl} {e e' : Expr} {ty : Ty}

theorem operators (h : Checks t e ty e' t') (ht : t.Operators) : t'.Operators :=
  ht.within h.grows.within

/-- A check keeps a table regular, and finds a type of values. -/
theorem regular (h : Checks t e ty e' t') (he : e.WellSorted) (ht : t.Regular) :
    ty.IsData ∧ t'.Regular := by
  induction h with
  | int => exact ⟨.inl rfl, ht⟩
  | bool => exact ⟨.inr rfl, ht⟩
  | var hx => exact ⟨ht.data hx, ht⟩
  | const => exact ⟨.inr rfl, ht⟩
  | @unary _ _ _ _ _ op _ _ _ _ ih =>
    obtain ⟨-, ht'⟩ := ih he ht
    rw [ht'.unarySig_eq]
    exact ⟨op.isData_result, ht'⟩
  | @binary _ _ _ _ _ _ _ op _ _ _ _ _ _ _ iha ihb =>
    obtain ⟨hop, ha, hb⟩ := he
    obtain ⟨-, ht₁⟩ := iha ha ht
    obtain ⟨-, ht₂⟩ := ihb hb ht₁
    rw [ht₂.binarySig_eq]
    refine ⟨BinaryOp.isData_result ?_, ht₂⟩
    rintro rfl
    cases hop
  | declare _ hx ih =>
    obtain ⟨hty, ht'⟩ := ih he.2.2 ht
    exact ⟨hty, ht'.declare hx hty⟩
  | reassign _ _ ih => exact ih he.2.2 ht
  | compound _ hop _ _ ih =>
    obtain ⟨-, ht'⟩ := ih he.2.2 ht
    rw [ht'.binarySig_eq]
    exact ⟨BinaryOp.isData_result hop, ht'⟩
  | print _ ih => exact ih he ht

/-- No name is used too early. -/
theorem resolved (h : Checks t e ty e' t') : Resolved t.Binds e.accesses := by
  induction h with
  | int | bool => exact resolved_nil
  | var hx => exact resolved_use_iff.2 ⟨_, hx⟩
  | const hx => exact resolved_use_iff.2 ⟨_, hx⟩
  | unary _ _ ih => exact ih
  | binary ha _ _ iha ihb =>
    refine resolved_append_iff.2 ⟨iha, ihb.imp fun y hy => ?_⟩
    rw [Expr.define_mem_accesses_iff]
    exact ha.binds_iff.1 hy
  | declare _ _ ih => exact resolved_append_iff.2 ⟨ih, resolved_define⟩
  | reassign _ _ ih => exact resolved_append_iff.2 ⟨ih, resolved_define⟩
  | compound hv hop hx _ ih =>
    refine resolved_append_iff.2 ⟨ih, ?_⟩
    rw [if_neg hop, resolved_use_iff, Expr.define_mem_accesses_iff]
    exact hv.binds_iff.1 ⟨_, hx⟩
  | print _ ih => exact ih

end Checks

/-! ## Attached types -/

/-- The type that is attached to an expression is the one it has under `G`, and a type of values. -/
def Expr.Annotated (G : Table Decl) (e : Expr) : Prop := e.ty.IsData ∧ HasType G e e.ty

theorem Expr.Annotated.mono {G G' : Table Decl} {e : Expr} (h : e.Annotated G) (hG : G.Within G') :
    e.Annotated G' :=
  ⟨h.1, h.2.mono hG⟩

/-- **Attached types.** A check attaches to every part of an expression the type that it has under
the table after the check. -/
theorem Checks.parts_annotated {t t' : Table Decl} {e e' : Expr} {ty : Ty}
    (h : Checks t e ty e' t') (he : e.WellSorted) (ht : t.Regular) :
    ∀ n ∈ e'.parts, n.Annotated t' := by
  -- the node itself comes first among its parts; its operands are annotated by induction
  induction h with
  | int t l n => exact List.forall_mem_singleton.2 ⟨.inl rfl, .int l n⟩
  | bool t l b => exact List.forall_mem_singleton.2 ⟨.inr rfl, .bool l b⟩
  | var hx => exact List.forall_mem_singleton.2 ⟨ht.data hx, .var hx⟩
  | const hx => exact List.forall_mem_singleton.2 ⟨.inr rfl, .const hx⟩
  | @unary t t' l ty₀ ty op e e' hc hop ih =>
    obtain ⟨-, ht'⟩ := hc.regular he ht
    have hparts := ih he ht
    have hself := (hparts e' e'.self_mem_parts).2
    rw [hc.ty_eq, hop] at hself
    rw [ht'.unarySig_eq] at hself ⊢
    exact List.forall_mem_cons.2 ⟨⟨op.isData_result, .unary (ht'.unary op) hself⟩, hparts⟩
  | @binary t t₁ t₂ l ty₀ tya tyb op a a' b b' hca hcb htakes iha ihb =>
    obtain ⟨hop, ha, hb⟩ := he
    obtain ⟨-, ht₁⟩ := hca.regular ha ht
    obtain ⟨-, ht₂⟩ := hcb.regular hb ht₁
    have hleft : ∀ n ∈ a'.parts, n.Annotated t₂ :=
      fun n hn => (iha ha ht n hn).mono hcb.grows.within
    have hright := ihb hb ht₁
    have hselfa := (hleft a' a'.self_mem_parts).2
    have hselfb := (hright b' b'.self_mem_parts).2
    rw [hca.ty_eq] at hselfa
    rw [hcb.ty_eq] at hselfb
    rw [ht₂.binarySig_eq] at htakes ⊢
    have hdata : op.sig.result.IsData := BinaryOp.isData_result (by rintro rfl; cases hop)
    exact List.forall_mem_cons.2 ⟨⟨hdata, .binary (ht₂.binary op) hselfa hselfb htakes⟩,
      List.forall_mem_append.2 ⟨hleft, hright⟩⟩
  | @declare t t' l l' ty₀ ty₁ ty x v v' hc hx ih =>
    obtain ⟨hty, -⟩ := hc.regular he.2.2 ht
    have hgrows : Grows t' (t'.save x (.var ty)) := .declare (.refl t') hx
    have hparts : ∀ n ∈ v'.parts, n.Annotated (t'.save x (.var ty)) :=
      fun n hn => (ih he.2.2 ht n hn).mono hgrows.within
    have hself := (hparts v' v'.self_mem_parts).2
    rw [hc.ty_eq] at hself
    have hsave : (t'.save x (.var ty)).get? x = some (.var ty) := by
      rw [Table.get?_save, if_pos rfl]
    exact List.forall_mem_cons.2 ⟨⟨hty, .assign hsave hself⟩,
      List.forall_mem_cons.2 ⟨⟨hty, .var hsave⟩, hparts⟩⟩
  | @reassign t t' l l' ty₀ ty₁ ty x v v' hc hx ih =>
    obtain ⟨hty, -⟩ := hc.regular he.2.2 ht
    have hparts := ih he.2.2 ht
    have hself := (hparts v' v'.self_mem_parts).2
    rw [hc.ty_eq] at hself
    exact List.forall_mem_cons.2 ⟨⟨hty, .assign hx hself⟩,
      List.forall_mem_cons.2 ⟨⟨hty, .var hx⟩, hparts⟩⟩
  | @compound t t' l l' ty₀ ty₁ ty tyv op x v v' hc hop hx htakes ih =>
    obtain ⟨-, ht'⟩ := hc.regular he.2.2 ht
    have hparts := ih he.2.2 ht
    have hself := (hparts v' v'.self_mem_parts).2
    rw [hc.ty_eq] at hself
    rw [ht'.binarySig_eq] at htakes ⊢
    refine List.forall_mem_cons.2 ⟨⟨BinaryOp.isData_result hop, ?_⟩,
      List.forall_mem_cons.2 ⟨⟨ht'.data hx, .var hx⟩, hparts⟩⟩
    exact .compound hop (ht'.binary op) hx hself htakes
  | @print t t' l ty e e' hc ih =>
    have hparts := ih he ht
    have hself := hparts e' e'.self_mem_parts
    exact List.forall_mem_cons.2 ⟨⟨hself.1, .print hself.2⟩, hparts⟩

/-- A checked expression is typed under the table after the check. -/
theorem Checks.hasType {t t' : Table Decl} {e e' : Expr} {ty : Ty} (h : Checks t e ty e' t')
    (he : e.WellSorted) (ht : t.Regular) : HasType t' e ty := by
  have hself := (h.parts_annotated he ht e' e'.self_mem_parts).2
  have htree := e.untyped_tree t
  rw [h.check_eq] at htree
  rw [h.ty_eq] at hself
  exact .of_untyped (htree ▸ hself.untyped)

/-! ## Typed expressions are checked -/

/-- **Completeness.** An expression that is typed under `G` is checked under every part of `G` in
which it uses no name too early, and the table stays within `G`. -/
theorem HasType.checks {G t : Table Decl} {e : Expr} {ty : Ty} (h : HasType G e ty)
    (ht : t.Operators) (hG : t.Within G) (he : Resolved t.Binds e.accesses) :
    ∃ e' t', Checks t e ty e' t' ∧ t'.Within G := by
  induction h generalizing t with
  | int l n => exact ⟨_, t, .int t l n, hG⟩
  | bool l b => exact ⟨_, t, .bool t l b, hG⟩
  | var hx =>
    obtain ⟨d, hd⟩ := resolved_use_iff.1 he
    rw [hG _ _ hd] at hx
    cases hx
    exact ⟨_, t, .var hd, hG⟩
  | const hx =>
    obtain ⟨d, hd⟩ := resolved_use_iff.1 he
    rw [hG _ _ hd] at hx
    cases hx
    exact ⟨_, t, .const hd, hG⟩
  | unary hop _ ih =>
    obtain ⟨e', t', hc, hG'⟩ := ih ht hG he
    obtain rfl := (hc.operators ht).eq_unarySig hG' hop
    exact ⟨_, t', .unary hc rfl, hG'⟩
  | binary hop _ _ htakes iha ihb =>
    obtain ⟨hea, heb⟩ := resolved_append_iff.1 he
    obtain ⟨a', t₁, hca, hG₁⟩ := iha ht hG hea
    -- what the left operand defines is bound when the right one is checked
    have heb' := heb.imp fun y hy => hca.binds_iff.2 (hy.imp_right Expr.define_mem_accesses_iff.1)
    obtain ⟨b', t₂, hcb, hG₂⟩ := ihb (hca.operators ht) hG₁ heb'
    obtain rfl := (hcb.operators (hca.operators ht)).eq_binarySig hG₂ hop
    exact ⟨_, t₂, .binary hca hcb htakes, hG₂⟩
  | @assign _ _ _ _ ty x _ hx _ ih =>
    obtain ⟨hev, -⟩ := resolved_append_iff.1 he
    obtain ⟨v', t', hc, hG'⟩ := ih ht hG hev
    cases hd : t'.get? x with
    | none =>
      refine ⟨_, _, .declare hc hd, fun y d hy => ?_⟩
      rw [Table.get?_save] at hy
      split at hy
      · rename_i hyx
        cases hy
        rw [hyx]
        exact hx
      · exact hG' y d hy
    | some d =>
      rw [hG' _ _ hd] at hx
      cases hx
      exact ⟨_, t', .reassign hc hd, hG'⟩
  | compound hop hsig hx _ htakes ih =>
    obtain ⟨hev, hex⟩ := resolved_append_iff.1 he
    obtain ⟨v', t', hc, hG'⟩ := ih ht hG hev
    rw [if_neg hop, resolved_use_iff] at hex
    obtain ⟨d, hd⟩ := hc.binds_iff.2 (hex.imp_right Expr.define_mem_accesses_iff.1)
    rw [hG' _ _ hd] at hx
    cases hx
    obtain rfl := (hc.operators ht).eq_binarySig hG' hsig
    exact ⟨_, t', .compound hc hop hd htakes, hG'⟩
  | print _ ih =>
    obtain ⟨e', t', hc, hG'⟩ := ih ht hG he
    exact ⟨_, t', .print hc, hG'⟩

/-! ## Programs -/

namespace ChecksAll

variable {t t' : Table Decl} {p p' : Program}

theorem binds_iff {x : String} (h : ChecksAll t p p' t') :
    t'.Binds x ↔ t.Binds x ∨ x ∈ p.assigned := by
  induction h with
  | nil => simp [Program.assigned]
  | cons he _ ih =>
    rw [ih, he.binds_iff, or_assoc]
    simp [Program.assigned]

theorem regular (h : ChecksAll t p p' t') (hp : ∀ e ∈ p, e.WellSorted) (ht : t.Regular) :
    t'.Regular := by
  induction h with
  | nil => exact ht
  | cons he _ ih =>
    obtain ⟨hfirst, hrest⟩ := List.forall_mem_cons.1 hp
    exact ih hrest (he.regular hfirst ht).2

theorem resolved (h : ChecksAll t p p' t') : Resolved t.Binds p.accesses := by
  induction h with
  | nil => exact resolved_nil
  | cons he _ ih =>
    refine resolved_append_iff.2 ⟨he.resolved, ih.imp fun y hy => ?_⟩
    rw [Expr.define_mem_accesses_iff]
    exact he.binds_iff.1 hy

theorem typed (h : ChecksAll t p p' t') (hp : ∀ e ∈ p, e.WellSorted) (ht : t.Regular) :
    ∀ e ∈ p, ∃ ty, HasType t' e ty := by
  induction h with
  | nil => simp
  | cons he hrest ih =>
    obtain ⟨hfirst, hp⟩ := List.forall_mem_cons.1 hp
    have htyped := (he.hasType hfirst ht).mono hrest.grows.within
    exact List.forall_mem_cons.2 ⟨⟨_, htyped⟩, ih hp (he.regular hfirst ht).2⟩

/-- **Attached types of programs.** -/
theorem parts_annotated (h : ChecksAll t p p' t') (hp : ∀ e ∈ p, e.WellSorted) (ht : t.Regular) :
    ∀ e ∈ p', ∀ n ∈ e.parts, n.Annotated t' := by
  induction h with
  | nil => simp
  | cons he hrest ih =>
    obtain ⟨hfirst, hp⟩ := List.forall_mem_cons.1 hp
    refine List.forall_mem_cons.2 ⟨fun n hn => ?_, ih hp (he.regular hfirst ht).2⟩
    exact (he.parts_annotated hfirst ht n hn).mono hrest.grows.within

/-- **Checked programs are typed** by the table after the check. -/
theorem typedBy (h : ChecksAll t p p' t') (hp : ∀ e ∈ p, e.WellSorted) (ht : t.Regular) :
    p.TypedBy t t' where
  extension :=
    { flat := h.grows.depth_eq.trans ht.flat
      keeps := h.grows.within
      declares := by
        intro x hx hnone
        obtain ⟨d, hd⟩ := h.binds_iff.2 (.inr hx)
        obtain ⟨ty, rfl⟩ := h.grows.var_of_new hnone hd
        exact ⟨ty, (h.regular hp ht).data hd, hd⟩
      nothing_else := by
        intro x hx hnone
        refine Table.not_binds_iff.1 fun hbinds => ?_
        exact (h.binds_iff.1 hbinds).elim (Table.not_binds_iff.2 hnone) hx }
  typed := h.typed hp ht
  resolved := h.resolved

end ChecksAll

/-- Typed expressions in a row are checked in turn. -/
theorem exists_checksAll {G t : Table Decl} {p : Program} (hp : ∀ e ∈ p, ∃ ty, HasType G e ty)
    (ht : t.Operators) (hG : t.Within G) (hres : Resolved t.Binds p.accesses) :
    ∃ p' t', ChecksAll t p p' t' ∧ t'.Within G := by
  induction p generalizing t with
  | nil => exact ⟨[], t, .nil t, hG⟩
  | cons e p ih =>
    obtain ⟨⟨ty, he⟩, hrest⟩ := List.forall_mem_cons.1 hp
    obtain ⟨hres₁, hres₂⟩ := resolved_append_iff.1 hres
    obtain ⟨e', t₁, hc, hG₁⟩ := he.checks ht hG hres₁
    have hres₂' :=
      hres₂.imp fun y hy => hc.binds_iff.2 (hy.imp_right Expr.define_mem_accesses_iff.1)
    obtain ⟨p', t₂, hcs, hG₂⟩ := ih hrest (hc.operators ht) hG₁ hres₂'
    exact ⟨e' :: p', t₂, .cons hc hcs, hG₂⟩

/-- **Typed programs are checked**, and the table after the check is the one that types them. -/
theorem Program.TypedBy.checksAll {G G' : Table Decl} {p : Program} (h : p.TypedBy G G')
    (hG : G.Regular) : ∃ p', ChecksAll G p p' G' := by
  obtain ⟨p', t', hc, ht'⟩ := exists_checksAll h.typed hG.toOperators h.extension.keeps h.resolved
  have heq : t' = G' := by
    refine Table.ext_of_flat (hc.grows.depth_eq.trans hG.flat) h.extension.flat fun x => ?_
    cases hx : t'.get? x with
    | some d => exact (ht' x d hx).symm
    | none =>
      -- a name that the check leaves unbound is neither bound in `G` nor assigned
      have hunbound := Table.not_binds_iff.2 hx
      rw [hc.binds_iff, not_or, Table.not_binds_iff] at hunbound
      exact (h.extension.nothing_else x hunbound.2 hunbound.1).symm
  exact ⟨p', heq ▸ hc⟩

end Reckon
