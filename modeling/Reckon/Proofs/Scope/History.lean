import Mathlib.Data.List.Induction
import Mathlib.Logic.Function.Basic
import Reckon.Proofs.Scope.Bracket

/-!
# Histories of tables

Tables are changed step by step, and copied. What a table binds can be read off the steps that have
led to it: at each level that is still open, a name is bound to the value most recently bound to it
there.

* `TableStep.MostRecent`: the value that steps have most recently bound to a name at a level.
* `Table.afterStep_spec`: what one step makes of the depth and of the bindings at each level.
* `Table.getAt?_afterSteps_eq_some_iff`: after any steps, the levels bind the most recent values.
* `Table.sameBindings_iff`: histories with the same bindings lead to the same table.
* `TablesStep`, `Tables.after`: tables that are changed and copied.
* `Tables.after_eq_afterSteps`: a copy is what the steps before and after the copying make it.
-/

namespace Reckon

variable {α : Type}

/-! ## The most recent binding -/

namespace TableStep

/-- The depth of a table after a step, if it is `depth` before. The outermost level is not
closed. -/
def depthAfter (depth : Nat) (a : TableStep α) : Nat := (a.openAfter depth).getD depth

/-- The depth of a table after some steps, which start with the outermost level alone. -/
def depthOf (as : List (TableStep α)) : Nat := as.foldl depthAfter 0

/-- What a step binds a name to at a level of a table. A name can only be declared at a level that
is open. -/
def binds? (depth level : Nat) (name : String) : TableStep α → Option α
  | openScope => none
  | closeScope => none
  | save x v => if level = depth ∧ name = x then some v else none
  | declare n x v => if n = level ∧ level ≤ depth ∧ name = x then some v else none

/-- A step neither binds a name at a level nor closes the level. -/
def Keeps (depth level : Nat) (name : String) (a : TableStep α) : Prop :=
  a.binds? depth level name = none ∧ level ≤ a.depthAfter depth

/-- None of some steps in turn binds a name at a level or closes the level. -/
def AllKeep (level : Nat) (name : String) : Nat → List (TableStep α) → Prop
  | _, [] => True
  | depth, a :: as => a.Keeps depth level name ∧ AllKeep level name (a.depthAfter depth) as

/-- The value that some steps in turn have most recently bound to a name at a level. One of them
binds the name to it there, and those after it keep the binding. -/
def MostRecent (as : List (TableStep α)) (level : Nat) (name : String) (v : α) : Prop :=
  ∃ before a after, as = before ++ a :: after ∧ a.binds? (depthOf before) level name = some v ∧
    AllKeep level name (depthOf (before ++ [a])) after

variable {level : Nat} {name : String} {v : α}

theorem depthAfter_closeScope (depth : Nat) :
    (closeScope : TableStep α).depthAfter depth = depth - 1 := by
  cases depth <;> rfl

theorem depthOf_append (as bs : List (TableStep α)) :
    depthOf (as ++ bs) = bs.foldl depthAfter (depthOf as) :=
  List.foldl_append

theorem allKeep_concat {depth : Nat} {as : List (TableStep α)} {a : TableStep α} :
    AllKeep level name depth (as ++ [a]) ↔
      AllKeep level name depth as ∧ a.Keeps (as.foldl depthAfter depth) level name := by
  induction as generalizing depth with
  | nil => exact and_comm
  | cons b as ih => rw [List.cons_append, AllKeep, AllKeep, ih, and_assoc, List.foldl_cons]

theorem not_mostRecent_nil : ¬ MostRecent [] level name v := by
  rintro ⟨before, a, after, h, -⟩
  cases before <;> cases h

/-- A step sets the most recent binding, or keeps it, or it is lost. -/
theorem mostRecent_concat {as : List (TableStep α)} {a : TableStep α} :
    MostRecent (as ++ [a]) level name v ↔
      a.binds? (depthOf as) level name = some v ∨
        a.Keeps (depthOf as) level name ∧ MostRecent as level name v := by
  constructor
  · rintro ⟨before, b, after, has, hbinds, hkeep⟩
    -- the step that binds the name is the last one, or one of those before it
    rcases List.eq_nil_or_concat after with rfl | ⟨after, c, rfl⟩
    · obtain ⟨rfl, hab⟩ := List.append_inj' has rfl
      cases hab
      exact .inl hbinds
    · rw [List.concat_eq_append] at has hkeep
      rw [← List.cons_append, ← List.append_assoc] at has
      obtain ⟨rfl, hac⟩ := List.append_inj' has rfl
      cases hac
      rw [allKeep_concat, ← depthOf_append, List.append_assoc] at hkeep
      exact .inr ⟨hkeep.2, before, b, after, rfl, hbinds, hkeep.1⟩
  · rintro (hbinds | ⟨hkeeps, before, b, after, rfl, hbinds, hkeep⟩)
    · exact ⟨as, a, [], rfl, hbinds, trivial⟩
    · refine ⟨before, b, after ++ [a], List.append_assoc .., hbinds, allKeep_concat.2 ⟨hkeep, ?_⟩⟩
      rwa [← depthOf_append, List.append_assoc]

end TableStep

open TableStep

namespace Table

variable {t : Table α}

/-! ## Steps of one table -/

/-- The table after a step. One that cannot be made leaves the table as it is. -/
def afterStep (t : Table α) (a : TableStep α) : Table α := (t.step? a).getD t

/-- The table after some steps. -/
def afterSteps (t : Table α) (as : List (TableStep α)) : Table α := as.foldl afterStep t

theorem afterSteps_append (t : Table α) (as bs : List (TableStep α)) :
    t.afterSteps (as ++ bs) = (t.afterSteps as).afterSteps bs :=
  List.foldl_append

theorem afterStep_of_some {a : TableStep α} {t' : Table α} (h : t.step? a = some t') :
    t.afterStep a = t' := by
  rw [afterStep, h, Option.getD_some]

theorem afterStep_of_none {a : TableStep α} (h : t.step? a = none) : t.afterStep a = t := by
  rw [afterStep, h, Option.getD_none]

/-- Levels that are not open bind nothing. -/
theorem getAt?_eq_ite {k : Nat} (h : t.depth ≤ k) (n : Nat) (name : String) :
    t.getAt? n name = if n ≤ k then t.getAt? n name else none := by
  split
  · rfl
  · exact lookupAt?_of_length_le (by rw [length_levels]; omega)

theorem close?_of_depth_pos (h : t.depth ≠ 0) :
    ∃ t', t.close? = some t' ∧ t'.depth = t.depth - 1 ∧
      ∀ n name, t'.getAt? n name = if n ≤ t'.depth then t.getAt? n name else none := by
  obtain ⟨inner, outer⟩ := t
  cases inner with
  | nil => exact absurd rfl h
  | cons l rest =>
    refine ⟨⟨rest, outer⟩, rfl, rfl, fun n name => ?_⟩
    rw [getAt?_eq_ite (Nat.le_refl _) n name]
    split
    · have hlength := (⟨rest, outer⟩ : Table α).length_levels
      exact (lookupAt?_append (by omega) [l]).symm
    · rfl

theorem afterStep_declare (t : Table α) (level : Int) (x : String) (v : α) :
    (t.afterStep (.declare level x v)).depth = t.depth ∧
      ∀ n name, (t.afterStep (.declare level x v)).getAt? n name =
        (binds? t.depth n name (.declare level x v)).or (t.getAt? n name) := by
  by_cases h : 0 ≤ level ∧ level ≤ t.depth
  · obtain ⟨k, rfl⟩ := Int.eq_ofNat_of_zero_le h.1
    have hk : k ≤ t.depth := Int.ofNat_le.1 h.2
    obtain ⟨t', hd, hdepth, hbound⟩ := declare?_of_open hk x v
    have hd : t.step? (.declare k x v) = some t' := hd
    rw [afterStep_of_some hd]
    refine ⟨hdepth, fun n name => ?_⟩
    rw [hbound, binds?]
    by_cases hn : n = k ∧ name = x
    · rw [if_pos hn, if_pos ⟨congrArg _ hn.1.symm, hn.1 ▸ hk, hn.2⟩]
      rfl
    · rw [if_neg hn, if_neg fun h' => hn ⟨(Int.ofNat.inj h'.1).symm, h'.2.2⟩]
      rfl
  · have hnone : t.step? (.declare level x v) = none := declare?_of_not_open h x v
    rw [afterStep_of_none hnone]
    refine ⟨rfl, fun n name => ?_⟩
    rw [binds?, if_neg fun h' => h ⟨by omega, by omega⟩]
    rfl

/-- **One step.** The depth changes as scopes are opened and closed. A level binds a name to what
the step binds it to there, if it does so, and else to what it did before, if it is still open. -/
theorem afterStep_spec (t : Table α) (a : TableStep α) :
    (t.afterStep a).depth = a.depthAfter t.depth ∧
      ∀ n name, (t.afterStep a).getAt? n name = (a.binds? t.depth n name).or
        (if n ≤ a.depthAfter t.depth then t.getAt? n name else none) := by
  cases a with
  | openScope =>
    refine ⟨rfl, fun n name => ?_⟩
    have hopened : t.openScope.getAt? n name = t.getAt? n name := lookupAt?_cons_of_none rfl n _
    exact hopened.trans (getAt?_eq_ite (Nat.le_succ _) n name)
  | closeScope =>
    rw [depthAfter_closeScope]
    by_cases h : t.depth = 0
    · -- the outermost level stays, and the depth with it
      have hnone : t.step? .closeScope = none := by
        rw [step?, Table.close?, List.length_eq_zero_iff.1 h]
      have hdepth : t.depth = t.depth - 1 := by omega
      rw [afterStep_of_none hnone]
      exact ⟨hdepth, getAt?_eq_ite (Nat.le_of_eq hdepth)⟩
    · obtain ⟨t', hclose, hdepth, hbound⟩ := close?_of_depth_pos h
      have hclose : t.step? .closeScope = some t' := hclose
      rw [afterStep_of_some hclose, ← hdepth]
      exact ⟨rfl, hbound⟩
  | save x v =>
    refine ⟨depth_save t x v, fun n name => ?_⟩
    have hsaved : (t.afterStep (.save x v)).getAt? n name = _ := getAt?_save t x name v n
    rw [hsaved, binds?]
    split
    · rfl
    · exact getAt?_eq_ite (Nat.le_refl _) n name
  | declare level x v =>
    obtain ⟨hdepth, hbound⟩ := afterStep_declare t level x v
    refine ⟨hdepth, fun n name => ?_⟩
    rw [hbound]
    exact congrArg _ (getAt?_eq_ite (Nat.le_refl _) n name)

/-- **Some steps**, counted in open scopes. -/
theorem depth_afterSteps (as : List (TableStep α)) :
    (empty.afterSteps as).depth = depthOf as := by
  induction as using List.reverseRecOn with
  | nil => rfl
  | append_singleton as a ih =>
    rw [afterSteps_append, depthOf_append, ← ih]
    exact (afterStep_spec _ a).1

/-- **Some steps**: the levels of the table bind names to the values most recently bound to them
there. -/
theorem getAt?_afterSteps_eq_some_iff {as : List (TableStep α)} {n : Nat} {name : String} {v : α} :
    (empty.afterSteps as).getAt? n name = some v ↔ MostRecent as n name v := by
  induction as using List.reverseRecOn with
  | nil =>
    refine iff_of_false ?_ not_mostRecent_nil
    rw [getAt?_eq_ite (Nat.le_refl _)]
    split <;> simp [afterSteps, empty, getAt?, levels, lookupAt?]
  | append_singleton as a ih =>
    have hconcat : (empty : Table α).afterSteps (as ++ [a]) = (empty.afterSteps as).afterStep a :=
      afterSteps_append ..
    rw [hconcat, (afterStep_spec _ a).2, depth_afterSteps, Option.or_eq_some_iff,
      Option.ite_none_right_eq_some, ih, mostRecent_concat, Keeps, and_assoc]

/-- Two histories of a table that leave equally many levels open with the same bindings. -/
structure SameBindings (as bs : List (TableStep α)) : Prop where
  depth_eq : depthOf as = depthOf bs
  mostRecent_iff : ∀ n name v, MostRecent as n name v ↔ MostRecent bs n name v

theorem sameBindings_iff {as bs : List (TableStep α)} :
    SameBindings as bs ↔ (empty.afterSteps as : Table α) = empty.afterSteps bs := by
  constructor
  · intro h
    refine eq_of_getAt? ?_ fun n name => Option.ext fun v => ?_
    · rw [depth_afterSteps, depth_afterSteps, h.depth_eq]
    · rw [getAt?_afterSteps_eq_some_iff, getAt?_afterSteps_eq_some_iff, h.mostRecent_iff]
  · intro h
    refine ⟨?_, fun n name v => ?_⟩
    · rw [← depth_afterSteps, h, depth_afterSteps]
    · rw [← getAt?_afterSteps_eq_some_iff, h, getAt?_afterSteps_eq_some_iff]

/-- Names that are declared at different levels, and different names, can be declared in either
order. -/
theorem afterStep_declare_comm {level level' : Int} {x x' : String} (h : (level, x) ≠ (level', x'))
    (v v' : α) (t : Table α) :
    (t.afterStep (.declare level x v)).afterStep (.declare level' x' v') =
      (t.afterStep (.declare level' x' v')).afterStep (.declare level x v) := by
  refine eq_of_getAt? (by simp only [afterStep_declare]) fun n name => ?_
  simp only [afterStep_declare, binds?]
  by_cases hx : level = n ∧ n ≤ t.depth ∧ name = x
  · have hx' : ¬ (level' = n ∧ n ≤ t.depth ∧ name = x') :=
      fun hx' => h (Prod.ext (hx.1.trans hx'.1.symm) (hx.2.2.symm.trans hx'.2.2))
    rw [if_pos hx, if_neg hx', Option.none_or, Option.none_or]
  · rw [if_neg hx, Option.none_or, Option.none_or]

end Table

/-! ## Tables and their copies -/

/-- A step on one of some numbered tables, or the copying of one of them in the place of another. -/
inductive TablesStep (α : Type)
  | on (i : Nat) (a : TableStep α)
  | copy (source target : Nat)

/-- The steps that have led to a table, traced back through the copying of tables. The steps on all
the tables are given newest first. -/
def TablesStep.trace : Nat → List (TablesStep α) → List (TableStep α)
  | _, [] => []
  | i, on j a :: before => if i = j then trace i before ++ [a] else trace i before
  | i, copy source target :: before => trace (if i = target then source else i) before

namespace Tables

/-- The tables after a step. A copy shares nothing with the table that it is copied from. -/
def next (ts : Nat → Table α) : TablesStep α → Nat → Table α
  | .on i a => Function.update ts i ((ts i).afterStep a)
  | .copy source target => Function.update ts target (ts source)

/-- The tables after some steps, all of them new at the start. -/
def after (as : List (TablesStep α)) : Nat → Table α := as.foldl next fun _ => .empty

/-- The steps on a table and on those that it has been copied from, oldest first. -/
def history (as : List (TablesStep α)) (i : Nat) : List (TableStep α) :=
  TablesStep.trace i as.reverse

theorem after_concat (as : List (TablesStep α)) (a : TablesStep α) :
    after (as ++ [a]) = next (after as) a := by
  rw [after, List.foldl_append]
  rfl

theorem history_concat (as : List (TablesStep α)) (a : TablesStep α) (i : Nat) :
    history (as ++ [a]) i = TablesStep.trace i (a :: as.reverse) := by
  rw [history, List.reverse_append]
  rfl

/-- A table is what its history makes it. -/
theorem after_eq_afterSteps (as : List (TablesStep α)) (i : Nat) :
    after as i = Table.empty.afterSteps (history as i) := by
  induction as using List.reverseRecOn generalizing i with
  | nil => rfl
  | append_singleton as a ih =>
    rw [after_concat, history_concat]
    cases a with
    | on j a =>
      rw [next, TablesStep.trace]
      by_cases h : i = j
      · subst h
        rw [Function.update_self, if_pos rfl, Table.afterSteps_append, ih]
        rfl
      · rw [Function.update_of_ne h, if_neg h, ih]
        rfl
    | copy source target =>
      rw [next, TablesStep.trace]
      by_cases h : i = target
      · subst h
        rw [Function.update_self, if_pos rfl, ih]
        rfl
      · rw [Function.update_of_ne h, if_neg h, ih]
        rfl

end Tables

end Reckon
