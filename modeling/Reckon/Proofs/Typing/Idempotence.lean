import Reckon.Proofs.Typing.Annotation
import Reckon.Proofs.Typing.Growth

/-!
# Checking twice

A check that succeeds leaves a table in which the program checks again. The second check declares
nothing, since every name that the first one had to declare is now there with the type that it was
given; and it attaches the types of the first one.

* `Checks.later`: an expression that checks under some table checks under every table that its own
  has grown into, with the same types.
* `ChecksAll.later`: so does a program, each expression of which is then checked under the same
  table.
* `Program.check_idempotent`: attached types do not matter for a check, and a second check changes
  nothing.
-/

namespace Reckon

variable {t t' u : Table Decl}

/-- **A later table.** What is checked under a table that has grown needs no declaration. -/
theorem Checks.later {e e' : Expr} {ty : Ty} (h : Checks t e ty e' t') (hu : Grows t' u) :
    Checks u e ty e' u := by
  induction h with
  | int t l n => exact .int u l n
  | bool t l b => exact .bool u l b
  | var hx => exact .var (hu.get?_eq hx)
  | const hx => exact .const (hu.get?_eq hx)
  | unary _ hop ih =>
    rw [← hu.unarySig_eq] at hop ⊢
    exact .unary (ih hu) hop
  | binary _ hb hop iha ihb =>
    rw [← hu.binarySig_eq] at hop ⊢
    exact .binary (iha (hb.grows.trans hu)) (ihb hu) hop
  | @declare _ t' _ _ _ _ ty x _ _ _ hx ih =>
    -- the name is declared now, with the type of the value
    have hgrows : Grows t' u := (Grows.declare (.refl t') hx).trans hu
    have hnew : (t'.save x (.var ty)).get? x = some (.var ty) := by
      rw [Table.get?_save, if_pos rfl]
    exact .reassign (ih hgrows) (hu.get?_eq hnew)
  | reassign _ hx ih => exact .reassign (ih hu) (hu.get?_eq hx)
  | compound _ hop hx hsig ih =>
    rw [← hu.binarySig_eq] at hsig ⊢
    exact .compound (ih hu) hop (hu.get?_eq hx) hsig
  | print _ ih => exact .print (ih hu)

theorem ChecksAll.later {p p' : Program} (h : ChecksAll t p p' t') (hu : Grows t' u) :
    ChecksAll u p p' u := by
  induction h with
  | nil => exact .nil u
  | cons he hp ih => exact .cons (he.later (hp.grows.trans hu)) (ih hu)

/-- Programs that differ in attached types only are checked alike. -/
theorem Program.check_same {p q : Program} (h : q.map Expr.untyped = p.map Expr.untyped)
    (t : Table Decl) : (Program.check t q).Same (Program.check t p) := by
  have hq := Program.check_untyped t q
  have hp := Program.check_untyped t p
  rw [h] at hq
  refine ⟨hq.result.symm.trans hp.result, hq.table.symm.trans hp.table, fun a ha => ?_⟩
  have hok := hq.result.trans ha
  exact (hq.tree a hok).symm.trans (hp.tree a hok)

/-- **Checking is idempotent.** Let `p` and `q` be a program with any types attached to its nodes,
and `t` any table. Checking `q` has the outcome of checking `p`: it succeeds or fails with the same
error, and leaves the same table. If it succeeds, then checking the program again under that table,
with the types of the first check or any others on it, succeeds, leaves that table, and attaches the
types of the first check. -/
theorem Program.check_idempotent (t : Table Decl) (p q : Program)
    (hq : q.map Expr.untyped = p.map Expr.untyped) :
    ((Program.check t q).result = (Program.check t p).result ∧
      (Program.check t q).table = (Program.check t p).table) ∧
    ((Program.check t p).result = .ok () →
      Program.check (Program.check t p).table (Program.check t p).tree =
          ⟨.ok (), (Program.check t p).tree, (Program.check t p).table⟩ ∧
        Program.check (Program.check t p).table q =
          ⟨.ok (), (Program.check t p).tree, (Program.check t p).table⟩) := by
  have hsame := Program.check_same hq t
  refine ⟨⟨hsame.result, hsame.table⟩, fun hok => ?_⟩
  have hagain := ((checksAll_of_ok hok).later (.refl _)).check_eq
  have hany : ∀ r : Program, r.map Expr.untyped = p.map Expr.untyped →
      Program.check (Program.check t p).table r =
        ⟨.ok (), (Program.check t p).tree, (Program.check t p).table⟩ := by
    intro r hr
    have hsame := Program.check_same hr (Program.check t p).table
    rw [hagain] at hsame
    exact hsame.eq_of_ok rfl
  exact ⟨hany _ (Program.untyped_tree t p), hany q hq⟩

private def shadowed : Table Decl :=
  Decl.standard.openScope.save "add" (.binary ⟨.bool, .bool, .int⟩)

private def declaring (ty : Ty) : Program :=
  [.assign .nowhere ty .assign (.var .nowhere ty "x")
      (.binary .nowhere ty (.arith .add) (.bool .nowhere true) (.bool .nowhere false)),
    .assign .nowhere ty .assign (.var .nowhere ty "y") (.var .nowhere ty "x")]

private theorem check_declaring :
    (Program.check shadowed (declaring .unknown)).result = .ok () :=
  rfl

/-- Where `add` takes truth values to a word, `x = true + false` and then `y = x` check twice, with
wrong types on them the second time. -/
theorem Program.check_declaring_again :
    Program.check (Program.check shadowed (declaring .unknown)).table (declaring .bool) =
      ⟨.ok (), declaring .int, (Program.check shadowed (declaring .unknown)).table⟩ := by
  have htree : (Program.check shadowed (declaring .unknown)).tree = declaring .int := by
    decide +kernel
  have hagain := (Program.check_idempotent shadowed (declaring .unknown) (declaring .bool)
    rfl).2 check_declaring
  rw [htree] at hagain
  exact hagain.2

end Reckon
