import Reckon.Proofs.Grammar.Sentence

/-!
# Parts of expressions

An expression is made of parts: itself, its operands, and theirs in turn. What a program contains is
said about its parts.

* `Expr.parts`: an expression and all expressions inside it, targets of assignments included.
* `Expr.assigned`: the names that `=` assigns somewhere in an expression.
* `Expr.SortedOver leaf`: the operators that assign stand in assignments, and only there, and the
  leaves satisfy `leaf`. `Expr.WellSorted` asks nothing of the leaves.
* `Phrase.sortedOver`: what a phrase stands for is sorted over what its atoms satisfy.
* `wellSorted_of_parse`: the expressions that parsing builds are well sorted.
-/

namespace Reckon

namespace Expr

/-- An expression and all expressions inside it. -/
def parts : Expr → List Expr
  | int l n => [int l n]
  | bool l b => [bool l b]
  | var l ty x => [var l ty x]
  | unary l ty op e => unary l ty op e :: e.parts
  | binary l ty op a b => binary l ty op a b :: (a.parts ++ b.parts)
  | assign l ty op target v => assign l ty op target v :: (target.parts ++ v.parts)
  | print l e => print l e :: e.parts

theorem self_mem_parts (e : Expr) : e ∈ e.parts := by
  cases e <;> simp [parts]

/-- The name that a plain assignment to a variable assigns. -/
def assigned? : Expr → Option String
  | assign _ _ .assign (var _ _ x) _ => some x
  | _ => none

/-- The names that plain assignments assign, at the top of an expression or inside it. -/
def assigned (e : Expr) : List String := e.parts.filterMap assigned?

section Assigned

variable {l l' : Location} {ty ty' : Ty} {x : String} {v : Expr}

@[simp] theorem assigned_int {n : Int32} : (int l n).assigned = [] := rfl

@[simp] theorem assigned_bool {b : Bool} : (bool l b).assigned = [] := rfl

@[simp] theorem assigned_var : (var l ty x).assigned = [] := rfl

@[simp] theorem assigned_unary {op : UnaryOp} {e : Expr} :
    (unary l ty op e).assigned = e.assigned := rfl

@[simp] theorem assigned_binary {op : BinaryOp} {a b : Expr} :
    (binary l ty op a b).assigned = a.assigned ++ b.assigned :=
  List.filterMap_append

@[simp] theorem assigned_print {e : Expr} : (print l e).assigned = e.assigned := rfl

@[simp] theorem assigned_assign :
    (assign l ty .assign (var l' ty' x) v).assigned = x :: v.assigned := rfl

theorem assigned_compound {op : BinaryOp} (hop : op ≠ .assign) :
    (assign l ty op (var l' ty' x) v).assigned = v.assigned := by
  have hnone : assigned? (assign l ty op (var l' ty' x) v) = none := by
    cases op with
    | assign => exact absurd rfl hop
    | _ => rfl
  exact List.filterMap_cons_none hnone

end Assigned

/-- The operators that assign stand in assignments, and only there, and every literal and every name
satisfies `leaf`. -/
def SortedOver (leaf : Expr → Prop) : Expr → Prop
  | int l n => leaf (int l n)
  | bool l b => leaf (bool l b)
  | var l ty x => leaf (var l ty x)
  | unary _ _ _ e | print _ e => e.SortedOver leaf
  | binary _ _ op a b => op.isAssign = false ∧ a.SortedOver leaf ∧ b.SortedOver leaf
  | assign _ _ op target v => op.isAssign = true ∧ target.SortedOver leaf ∧ v.SortedOver leaf

/-- The operators that assign stand in assignments, and only there. -/
def WellSorted (e : Expr) : Prop := e.SortedOver fun _ => True

theorem SortedOver.wellSorted {leaf : Expr → Prop} {e : Expr} (h : e.SortedOver leaf) :
    e.WellSorted := by
  induction e with
  | int | bool | var => trivial
  | unary l ty op e ih => exact ih h
  | binary l ty op a b iha ihb => exact ⟨h.1, iha h.2.1, ihb h.2.2⟩
  | assign l ty op target v iht ihv => exact ⟨h.1, iht h.2.1, ihv h.2.2⟩
  | print l e ih => exact ih h

end Expr

/-! ## Parsed expressions -/

section Parsed

variable {leaf : Expr → Prop}

theorem Token.sortedOver_atom {t : Token} {e : Expr} (h : t.atom? = some e) (he : leaf e) :
    e.SortedOver leaf := by
  rcases Token.atom?_eq_some h with ⟨-, n, -, rfl⟩ | ⟨b, -, rfl⟩ | ⟨-, rfl⟩ <;> exact he

theorem BinaryOp.sortedOver_node {op : BinaryOp} {loc : Location} {l r : Expr}
    (hl : l.SortedOver leaf) (hr : r.SortedOver leaf) : (op.node loc l r).SortedOver leaf := by
  unfold BinaryOp.node
  split
  · rename_i hop
    exact ⟨hop, hl, hr⟩
  · rename_i hop
    exact ⟨Bool.eq_false_iff.2 hop, hl, hr⟩

/-- A phrase stands for an expression that is sorted over what its atoms satisfy. -/
theorem Phrase.sortedOver {p : Phrase}
    (h : ∀ t ∈ p.yield, ∀ e, t.atom? = some e → leaf e) : p.expr.SortedOver leaf := by
  induction p with
  | atom t e ht => exact Token.sortedOver_atom ht (h t (List.mem_singleton_self t) e ht)
  | paren l p r _ _ ih => exact ih fun t ht => h t (by simp [yield, ht])
  | prefixed t op p _ ih =>
    have hp := ih fun t ht => h t (by simp [yield, ht])
    cases op with
    | print => exact hp
    | unary op => exact hp
  | infixed t op l r _ ihl ihr =>
    exact BinaryOp.sortedOver_node (ihl fun t ht => h t (by simp [yield, ht]))
      (ihr fun t ht => h t (by simp [yield, ht]))

end Parsed

/-- **Parsed expressions are well sorted**, whatever the tokens are. -/
theorem wellSorted_of_parse {ts : List Token} {p : Program} (h : parse ts = .ok p) :
    ∀ e ∈ p, e.WellSorted := by
  obtain ⟨ps, rest, -, -, rfl, -⟩ := parse_eq_ok_iff.1 h
  intro e he
  obtain ⟨q, -, rfl⟩ := List.mem_map.1 he
  exact Phrase.sortedOver fun _ _ _ _ => trivial

end Reckon
