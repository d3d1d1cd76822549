import Reckon.Scope

/-!
# What the levels of a table bind

A name may be bound at several levels of a table. Looking it up finds the innermost of these
bindings only, so what happens to the others is said level by level.

* `Table.getAt?`: what the level with a number binds a name to.
* `Table.get?_eq_some_iff`, `Table.get?_eq_none_iff`: the innermost binding is the one that counts.
* `Table.getAt?_save`, `Table.declare?_of_open`: binding a name changes that name at one level, and
  nothing else.
* `Table.eq_of_getAt?`: a table is determined by its depth and by what its levels bind.
-/

namespace Reckon

namespace Table

variable {α : Type} {name : String} {v : α}

/-- What the level with a number binds a name to, among levels the first of which has the number of
those after it. -/
def lookupAt? (name : String) (level : Nat) : List (Level α) → Option α
  | [] => none
  | l :: rest => if level = rest.length then l.get? name else lookupAt? name level rest

/-- What the level with a number binds a name to, whatever the other levels say. The outermost level
has number zero, and the innermost one the depth of the table. -/
def getAt? (t : Table α) (level : Nat) (name : String) : Option α := lookupAt? name level t.levels

/-! ## Looking up -/

theorem lookupAt?_of_length_le {level : Nat} {ls : List (Level α)} (h : ls.length ≤ level) :
    lookupAt? name level ls = none := by
  induction ls with
  | nil => rfl
  | cons l rest ih =>
    rw [List.length_cons] at h
    rw [lookupAt?, if_neg (by omega), ih (by omega)]

/-- A level that does not bind a name makes no difference to it. -/
theorem lookupAt?_cons_of_none {l : Level α} (hl : l.get? name = none) (level : Nat)
    (rest : List (Level α)) : lookupAt? name level (l :: rest) = lookupAt? name level rest := by
  rw [lookupAt?]
  split
  · rename_i h
    rw [hl, lookupAt?_of_length_le (Nat.le_of_eq h.symm)]
  · rfl

theorem lookup?_eq_some_iff {ls : List (Level α)} :
    lookup? name ls = some v ↔
      ∃ n, lookupAt? name n ls = some v ∧ ∀ m, n < m → lookupAt? name m ls = none := by
  induction ls with
  | nil => simp [lookup?, lookupAt?]
  | cons l rest ih =>
    cases hl : l.get? name with
    | none => simp only [lookup?, hl, lookupAt?_cons_of_none hl, ih]
    | some w =>
      have hfirst : lookupAt? name rest.length (l :: rest) = some w := by
        rw [lookupAt?, if_pos rfl, hl]
      have houtside : ∀ m, rest.length < m → lookupAt? name m (l :: rest) = none :=
        fun m hm => lookupAt?_of_length_le hm
      simp only [lookup?, hl]
      refine ⟨fun h => ⟨rest.length, hfirst.trans h, houtside⟩, ?_⟩
      rintro ⟨n, hn, habove⟩
      -- the level with the number `n` is the first one: further out it is not above all, and
      -- further in there is none
      rcases Nat.lt_trichotomy n rest.length with hlt | rfl | hgt
      · rw [habove _ hlt] at hfirst
        cases hfirst
      · rw [← hfirst, hn]
      · rw [houtside n hgt] at hn
        cases hn

/-- **The innermost level that binds a name decides.** -/
theorem get?_eq_some_iff {t : Table α} :
    t.get? name = some v ↔
      ∃ n, t.getAt? n name = some v ∧ ∀ m, n < m → t.getAt? m name = none :=
  lookup?_eq_some_iff

theorem lookup?_eq_none_iff {ls : List (Level α)} :
    lookup? name ls = none ↔ ∀ n, lookupAt? name n ls = none := by
  induction ls with
  | nil => simp [lookup?, lookupAt?]
  | cons l rest ih =>
    cases hl : l.get? name with
    | none => simp only [lookup?, hl, lookupAt?_cons_of_none hl, ih]
    | some w =>
      refine iff_of_false (by simp [lookup?, hl]) fun h => ?_
      have hfirst := h rest.length
      rw [lookupAt?, if_pos rfl, hl] at hfirst
      cases hfirst

/-- A name has no meaning exactly if no level binds it. -/
theorem get?_eq_none_iff {t : Table α} : t.get? name = none ↔ ∀ n, t.getAt? n name = none :=
  lookup?_eq_none_iff

/-- A name that is bound alike at all levels means the same. -/
theorem get?_eq_of_getAt? {t t' : Table α} (h : ∀ n, t'.getAt? n name = t.getAt? n name) :
    t'.get? name = t.get? name := by
  apply Option.ext
  intro v
  rw [get?_eq_some_iff, get?_eq_some_iff]
  simp only [h]

/-! ## Binding -/

/-- Binding a name at the innermost level leaves the other levels alone. -/
theorem exists_levels (t : Table α) :
    ∃ l rest, t.levels = l :: rest ∧ t.depth = rest.length ∧
      ∀ x v, (t.save x v).levels = l.insert x v :: rest := by
  obtain ⟨inner, outer⟩ := t
  cases inner with
  | nil => exact ⟨outer, [], rfl, rfl, fun _ _ => rfl⟩
  | cons l rest =>
    refine ⟨l, rest ++ [outer], rfl, ?_, fun _ _ => rfl⟩
    simp [depth]

theorem getAt?_save (t : Table α) (x y : String) (v : α) (n : Nat) :
    (t.save x v).getAt? n y = if n = t.depth ∧ y = x then some v else t.getAt? n y := by
  obtain ⟨l, rest, hlevels, hdepth, hsave⟩ := t.exists_levels
  rw [getAt?, getAt?, hsave, hlevels, hdepth]
  simp only [lookupAt?, Level.get?_insert]
  by_cases hn : n = rest.length <;> by_cases hy : y = x <;> simp [hn, hy]

theorem getAt?_save_of_ne {x y : String} (h : y ≠ x) (t : Table α) (v : α) (n : Nat) :
    (t.save x v).getAt? n y = t.getAt? n y := by
  rw [getAt?_save, if_neg fun hxy => h hxy.2]

theorem length_levels (t : Table α) : t.levels.length = t.depth + 1 :=
  List.length_append

theorem lookupAt?_modify_insert (x y : String) (v : α) (n i : Nat) (ls : List (Level α)) :
    lookupAt? y n (ls.modify i (·.insert x v)) =
      if n + i + 1 = ls.length ∧ y = x then some v else lookupAt? y n ls := by
  induction ls generalizing i with
  | nil => simp [lookupAt?]
  | cons l rest ih =>
    cases i with
    | zero =>
      simp only [List.modify_zero_cons, lookupAt?, Level.get?_insert, List.length_cons]
      by_cases hn : n = rest.length <;> by_cases hy : y = x <;> simp [hn, hy]
    | succ i =>
      simp only [List.modify_succ_cons, lookupAt?, List.length_modify, List.length_cons, ih]
      by_cases hn : n = rest.length
      · rw [if_pos hn, if_neg (by omega), if_pos hn]
      · have hi : n + (i + 1) + 1 = rest.length + 1 ↔ n + i + 1 = rest.length := by omega
        simp only [hn, hi, if_false]

theorem levels_declare? {t : Table α} {level : Nat} (h : level ≤ t.depth) (x : String) (v : α) :
    ∃ t', t.declare? level x v = some t' ∧
      t'.levels = t.levels.modify (t.depth - level) (·.insert x v) := by
  unfold declare? levels depth at *
  by_cases h0 : level = 0
  · subst h0
    refine ⟨_, if_pos rfl, List.ext_getElem? fun i => ?_⟩
    grind [saveOuter]
  · refine ⟨_, by rw [if_neg (by omega), if_pos (by omega)], List.ext_getElem? fun i => ?_⟩
    grind

/-- A name can be declared at a level that is open, and is bound there and nowhere else. -/
theorem declare?_of_open {t : Table α} {level : Nat} (h : level ≤ t.depth) (x : String) (v : α) :
    ∃ t', t.declare? level x v = some t' ∧ t'.depth = t.depth ∧
      ∀ n y, t'.getAt? n y = if n = level ∧ y = x then some v else t.getAt? n y := by
  obtain ⟨t', hd, hlevels⟩ := levels_declare? h x v
  refine ⟨t', hd, ?_, fun n y => ?_⟩
  · have hlength := congrArg List.length hlevels
    rw [List.length_modify, length_levels, length_levels] at hlength
    omega
  · have hn : n + (t.depth - level) + 1 = t.depth + 1 ↔ n = level := by omega
    simp only [getAt?, hlevels, lookupAt?_modify_insert, length_levels, hn]

theorem declare?_of_not_open {t : Table α} {level : Int} (h : ¬ (0 ≤ level ∧ level ≤ t.depth))
    (x : String) (v : α) : t.declare? level x v = none := by
  rw [declare?, if_neg (by omega), if_neg (by omega)]

/-! ## Tables with the same bindings -/

theorem eq_of_lookupAt? {ls ms : List (Level α)} (hlength : ls.length = ms.length)
    (h : ∀ n x, lookupAt? x n ls = lookupAt? x n ms) : ls = ms := by
  induction ls generalizing ms with
  | nil => exact (List.length_eq_zero_iff.1 hlength.symm).symm
  | cons l ls ih =>
    cases ms with
    | nil => cases hlength
    | cons m ms =>
      have hrest : ls.length = ms.length := Nat.succ.inj hlength
      have hhead : l = m := by
        refine Level.ext_get? fun x => ?_
        simpa only [lookupAt?, hrest, if_true] using h ls.length x
      have htail : ls = ms := by
        refine ih hrest fun n x => ?_
        by_cases hn : n = ls.length
        · rw [lookupAt?_of_length_le (Nat.le_of_eq hn.symm),
            lookupAt?_of_length_le (Nat.le_of_eq (hn.trans hrest).symm)]
        · simpa only [lookupAt?, ← hrest, hn, if_false] using h n x
      rw [hhead, htail]

/-- **A table is determined by its bindings**: by how many levels it has and by what each of them
binds a name to. -/
theorem eq_of_getAt? {t t' : Table α} (hdepth : t.depth = t'.depth)
    (h : ∀ n x, t.getAt? n x = t'.getAt? n x) : t = t' := by
  have hlevels : t.levels = t'.levels :=
    eq_of_lookupAt? (by rw [length_levels, length_levels, hdepth]) h
  obtain ⟨inner, outer⟩ := t
  obtain ⟨inner', outer'⟩ := t'
  obtain ⟨hinner, houter⟩ : inner = inner' ∧ [outer] = [outer'] := List.append_inj hlevels hdepth
  rw [hinner, List.singleton_inj.1 houter]

end Table

end Reckon
