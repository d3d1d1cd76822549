import Reckon.Proofs.Scope.Levels

/-!
# Brackets of scopes

Between the opening of a scope and the matching close, a table is the old one with some levels on
top. Whatever is done to it meanwhile is done to these levels, and closing them brings the old table
back.

* `Table.Stacked`: a table with a number of levels open on top of another one.
* `TableStep`, `Table.step?`: the operations that change a table.
* `TableStep.Balanced`: steps that close what they open and nothing else.
* `Table.Stacked.step`: what one step does to the levels on top.
* `Table.Saved`: what binding names, one after the other, can make of a table.
-/

namespace Reckon

variable {α : Type}

/-! ## Steps -/

/-- An operation that changes a table. -/
inductive TableStep (α : Type)
  | openScope
  | closeScope
  | save (name : String) (v : α)
  | declare (level : Int) (name : String) (v : α)

/-- The table after a step; there is none if the step closes the outermost level or binds a name at
a level that is not open. -/
def Table.step? (t : Table α) : TableStep α → Option (Table α)
  | .openScope => some t.openScope
  | .closeScope => t.close?
  | .save name v => some (t.save name v)
  | .declare level name v => t.declare? level name v

namespace TableStep

/-- How many scopes are open after a step, if `k` are open before it. None may be closed that is not
one of these. -/
def openAfter (k : Nat) : TableStep α → Option Nat
  | openScope => some (k + 1)
  | closeScope =>
    match k with
    | 0 => none
    | k + 1 => some k
  | save _ _ => some k
  | declare _ _ _ => some k

/-- Names are declared only at levels above the one with the number `n`. -/
def DeclaresAbove (n : Nat) (a : TableStep α) : Prop :=
  ∀ level name v, a = declare level name v → (n : Int) < level

/-- Steps that close the scopes that they open and no others, and declare names only at levels above
the one with the number `n`. -/
structure Balanced (n : Nat) (as : List (TableStep α)) : Prop where
  closed : as.foldlM openAfter 0 = some 0
  above : ∀ a ∈ as, a.DeclaresAbove n

/-- The first of balanced steps close no other scopes, either. -/
theorem Balanced.of_isPrefix {n : Nat} {front as : List (TableStep α)} (h : Balanced n as)
    (hfront : front <+: as) :
    ∃ k, front.foldlM openAfter 0 = some k ∧ ∀ a ∈ front, a.DeclaresAbove n := by
  obtain ⟨back, rfl⟩ := hfront
  have hclosed := h.closed
  rw [List.foldlM_append] at hclosed
  obtain ⟨k, hk, -⟩ := Option.bind_eq_some_iff.1 hclosed
  exact ⟨k, hk, fun a ha => h.above a (List.mem_append_left _ ha)⟩

end TableStep

namespace Table

variable {t t' t'' : Table α} {k : Nat}

/-! ## Levels on top -/

/-- `t'` is `t` with `k` levels open on top of it. -/
structure Stacked (k : Nat) (t t' : Table α) : Prop where
  inner_eq : t'.inner.drop k = t.inner
  outer_eq : t'.outer = t.outer
  depth_eq : t'.depth = k + t.depth

/-- With nothing on top it is the same table. -/
theorem Stacked.eq (h : Stacked 0 t t') : t' = t := by
  obtain ⟨inner, outer⟩ := t
  obtain ⟨inner', outer'⟩ := t'
  have hinner : inner' = inner := h.inner_eq
  have houter : outer' = outer := h.outer_eq
  rw [hinner, houter]

theorem stacked_openScope (t : Table α) : Stacked 1 t t.openScope :=
  ⟨rfl, rfl, Nat.add_comm _ _⟩

theorem Stacked.openScope (h : Stacked k t t') : Stacked (k + 1) t t'.openScope where
  inner_eq := h.inner_eq
  outer_eq := h.outer_eq
  depth_eq := by
    have hdepth : t'.openScope.depth = t'.depth + 1 := rfl
    rw [hdepth, h.depth_eq]
    omega

/-- The innermost of the levels on top, which is the one that closing drops and saving changes. -/
theorem Stacked.exists_innermost (h : Stacked (k + 1) t t') :
    ∃ l rest, t'.inner = l :: rest ∧ rest.drop k = t.inner ∧ rest.length = k + t.depth := by
  obtain ⟨hinner, -, hdepth⟩ := h
  unfold depth at hdepth ⊢
  cases hls : t'.inner with
  | nil =>
    rw [hls, List.length_nil] at hdepth
    omega
  | cons l rest =>
    rw [hls] at hinner hdepth
    rw [List.length_cons] at hdepth
    exact ⟨l, rest, rfl, hinner, by omega⟩

theorem Stacked.close? (h : Stacked (k + 1) t t') :
    ∃ t'', t'.close? = some t'' ∧ Stacked k t t'' := by
  obtain ⟨l, rest, hls, hrest, hlength⟩ := h.exists_innermost
  refine ⟨⟨rest, t'.outer⟩, ?_, hrest, h.outer_eq, hlength⟩
  rw [Table.close?, hls]

theorem Stacked.save (h : Stacked (k + 1) t t') (name : String) (v : α) :
    Stacked (k + 1) t (t'.save name v) := by
  obtain ⟨l, rest, hls, hrest, -⟩ := h.exists_innermost
  have hsave : t'.save name v = ⟨l.insert name v :: rest, t'.outer⟩ := by rw [Table.save, hls]
  refine ⟨?_, ?_, (depth_save t' name v).trans h.depth_eq⟩
  · rw [hsave]
    exact hrest
  · rw [hsave]
    exact h.outer_eq

/-- Declaring a name above the old levels does not reach them. -/
theorem Stacked.declare? {level : Int} {name : String} {v : α} (h : Stacked k t t')
    (hlevel : (t.depth : Int) < level) (hd : t'.declare? level name v = some t'') :
    Stacked k t t'' := by
  have hdepth := h.depth_eq
  unfold Table.declare? at hd
  rw [if_neg (by omega)] at hd
  split at hd
  · rename_i hopen
    cases hd
    refine ⟨?_, h.outer_eq, ?_⟩
    · rw [← h.inner_eq]
      exact List.drop_modify_of_lt _ _ _ _ (by omega)
    · rw [← hdepth]
      exact List.length_modify _ _ _
  · cases hd

/-- A name can be declared at every level that is open. -/
theorem lt_of_declare?_eq_none {level : Int} {name : String} {v : α} (hlevel : 0 < level)
    (hd : t.declare? level name v = none) : (t.depth : Int) < level := by
  unfold declare? at hd
  rw [if_neg (by omega)] at hd
  split at hd
  · cases hd
  · omega

theorem lookupAt?_append {name : String} {n : Nat} {ls : List (Level α)} (h : n < ls.length)
    (top : List (Level α)) : lookupAt? name n (top ++ ls) = lookupAt? name n ls := by
  induction top with
  | nil => rfl
  | cons l top ih =>
    have hne : n ≠ (top ++ ls).length := by
      rw [List.length_append]
      omega
    rw [List.cons_append, lookupAt?, if_neg hne, ih]

/-- The old levels bind what they did. -/
theorem Stacked.getAt?_eq (h : Stacked k t t') {n : Nat} (hn : n ≤ t.depth) (name : String) :
    t'.getAt? n name = t.getAt? n name := by
  have hlevels : t'.levels = t'.inner.take k ++ t.levels := by
    rw [levels, levels, ← h.inner_eq, ← h.outer_eq, ← List.append_assoc, List.take_append_drop]
  have hlength : n < t.levels.length := by
    rw [levels, List.length_append]
    exact Nat.lt_succ_of_le hn
  rw [getAt?, getAt?, hlevels, lookupAt?_append hlength]

/-! ## Steps inside a bracket -/

/-- **One step.** With a level on top and `k` more, a step that closes none but these and declares
names above the old levels keeps the old levels. It is made, unless it declares a name at a level
that is not open. -/
theorem Stacked.step {a : TableStep α} {k' : Nat} (h : Stacked (k + 1) t t')
    (hopen : a.openAfter k = some k') (habove : a.DeclaresAbove t.depth) :
    (∃ t'', t'.step? a = some t'' ∧ Stacked (k' + 1) t t'') ∨
      t'.step? a = none ∧ k' = k ∧
        ∃ level name v, a = .declare level name v ∧ (t'.depth : Int) < level := by
  cases a with
  | openScope =>
    cases hopen
    exact .inl ⟨_, rfl, h.openScope⟩
  | closeScope =>
    cases k with
    | zero => cases hopen
    | succ k =>
      cases hopen
      exact .inl h.close?
  | save name v =>
    cases hopen
    exact .inl ⟨_, rfl, h.save name v⟩
  | declare level name v =>
    cases hopen
    have hlevel := habove level name v rfl
    cases hd : t'.declare? level name v with
    | some t'' => exact .inl ⟨t'', hd, h.declare? hlevel hd⟩
    | none =>
      exact .inr ⟨hd, rfl, level, name, v, rfl, lt_of_declare?_eq_none (by omega) hd⟩

/-! ## Names bound one after the other -/

/-- `t'` is `t` after some names have been bound at the innermost level. -/
inductive Saved : Table α → Table α → Prop
  | refl (t : Table α) : Saved t t
  | save {t t' : Table α} (h : Saved t t') (name : String) (v : α) : Saved t (t'.save name v)

theorem Saved.trans (h : Saved t t') (h' : Saved t' t'') : Saved t t'' := by
  induction h' with
  | refl => exact h
  | save _ name v ih => exact ih.save name v

theorem Stacked.saved (h : Stacked (k + 1) t t') (h' : Saved t' t'') : Stacked (k + 1) t t'' := by
  induction h' with
  | refl => exact h
  | save _ name v ih => exact ih.save name v

end Table

end Reckon
