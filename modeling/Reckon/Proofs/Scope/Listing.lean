import Mathlib.Data.List.Nodup
import Reckon.Proofs.Scope.History
import Reckon.Value

/-!
# The text of a table

The text of a table lists its levels with their numbers, innermost level first, and under each of
them a line for every name that it binds, in byte order. It says what is bound at each level, and
nothing of the way there: neither the order of the bindings, nor the ones that were replaced or lost
with their scope.

* `Block`, `Block.lines`: the part of the text that belongs to one level.
* `Lists`: blocks that list what steps in turn have most recently bound.
* `Table.dump_eq_join`, `Table.lists_blocks`: the text of a table is made of such blocks.
* `Table.get?_eq_lookup`: the first line with a name says what the name is bound to.
* `Tables.dump_canonical`: the text of every table that any steps lead to.
-/

namespace Reckon

variable {α : Type}

/-- The bindings of a level, under the number of the level. -/
structure Block (α : Type) where
  level : Nat
  bindings : List (String × α)

/-- The lines of a block: its number, and a line for each binding. -/
def Block.lines (render : α → String) (b : Block α) : List String :=
  ("level " ++ toString b.level ++ ":\n") ::
    b.bindings.map fun e => "\t" ++ e.1 ++ " => " ++ render e.2 ++ "\n"

/-- Blocks that list what some steps in turn have most recently bound: the levels that are open from
the innermost one to the outermost one, and at each level, with names in strictly increasing byte
order, exactly the bindings that the steps have left there. -/
structure Lists (as : List (TableStep α)) (blocks : List (Block α)) : Prop where
  levels_eq : blocks.map Block.level = (List.range (TableStep.depthOf as + 1)).reverse
  increasing : ∀ b ∈ blocks, (b.bindings.map Prod.fst).Pairwise Text.precedes
  mem_iff : ∀ b ∈ blocks, ∀ name v,
    (name, v) ∈ b.bindings ↔ TableStep.MostRecent as b.level name v

namespace Table

/-! ## Blocks of a table -/

/-- The blocks of levels the first of which has the number of those after it. -/
def blocksOf : List (Level α) → List (Block α)
  | [] => []
  | l :: rest => ⟨rest.length, l.entries⟩ :: blocksOf rest

/-- The blocks of a table, innermost level first. -/
def blocks (t : Table α) : List (Block α) := blocksOf t.levels

theorem levelLines_eq_join (render : α → String) (ls : List (Level α)) :
    levelLines render ls = String.join ((blocksOf ls).flatMap (Block.lines render)) := by
  induction ls with
  | nil => rfl
  | cons l rest ih =>
    rw [levelLines, blocksOf, List.flatMap_cons, String.join_append, ih, Block.lines,
      String.join_cons, entryLines]

/-- The text of a table is made of the lines of its blocks. -/
theorem dump_eq_join (render : α → String) (t : Table α) :
    t.dump render = String.join (t.blocks.flatMap (Block.lines render)) :=
  levelLines_eq_join render t.levels

theorem map_level_blocksOf (ls : List (Level α)) :
    (blocksOf ls).map Block.level = (List.range ls.length).reverse := by
  induction ls with
  | nil => rfl
  | cons l rest ih =>
    rw [blocksOf, List.map_cons, ih, List.length_cons, List.range_succ, List.reverse_append]
    rfl

/-- A block of levels is that of the level with its number. -/
theorem exists_level_of_mem_blocksOf {b : Block α} {ls : List (Level α)} (h : b ∈ blocksOf ls) :
    b.level < ls.length ∧
      ∃ l : Level α, b.bindings = l.entries ∧ ∀ name, lookupAt? name b.level ls = l.get? name := by
  induction ls with
  | nil => cases h
  | cons l rest ih =>
    rcases List.mem_cons.1 h with rfl | h
    · exact ⟨Nat.lt_succ_self _, l, rfl, fun name => if_pos rfl⟩
    · obtain ⟨hlt, m, hm, hget⟩ := ih h
      refine ⟨Nat.lt_succ_of_lt hlt, m, hm, fun name => ?_⟩
      rw [lookupAt?, if_neg (Nat.ne_of_lt hlt), hget]

/-- The blocks of a table list what the steps that lead to it have most recently bound. -/
theorem lists_blocks (as : List (TableStep α)) : Lists as (empty.afterSteps as).blocks where
  levels_eq := by rw [blocks, map_level_blocksOf, length_levels, depth_afterSteps]
  increasing b hb := by
    obtain ⟨-, l, hl, -⟩ := exists_level_of_mem_blocksOf hb
    rw [hl, List.pairwise_map]
    exact l.sorted
  mem_iff b hb name v := by
    obtain ⟨-, l, hl, hget⟩ := exists_level_of_mem_blocksOf hb
    rw [hl, l.mem_entries_iff, ← hget, ← getAt?_afterSteps_eq_some_iff]
    rfl

/-! ## The first line with a name -/

theorem find?_eq_lookup (name : String) (entries : List (String × α)) :
    Level.find? name entries = entries.lookup name := by
  induction entries with
  | nil => rfl
  | cons e rest ih =>
    obtain ⟨n, v⟩ := e
    rw [Level.find?, List.lookup_cons, ih]
    by_cases h : n = name
    · simp [h]
    · rw [if_neg h, beq_false_of_ne (Ne.symm h)]

theorem lookup?_eq_lookup (name : String) (ls : List (Level α)) :
    lookup? name ls = ((blocksOf ls).flatMap Block.bindings).lookup name := by
  induction ls with
  | nil => rfl
  | cons l rest ih =>
    rw [lookup?, blocksOf, List.flatMap_cons, List.lookup_append, ← ih, ← find?_eq_lookup]
    show _ = (l.get? name).or _
    cases l.get? name <;> rfl

/-- What a name is bound to stands in the first line with the name. -/
theorem get?_eq_lookup (t : Table α) (name : String) :
    t.get? name = (t.blocks.flatMap Block.bindings).lookup name :=
  lookup?_eq_lookup name t.levels

end Table

/-! ## Tables that any steps lead to -/

namespace Tables

/-- Declarations of names at levels of one table. -/
def declarations (i : Nat) (ds : List (Int × String × α)) : List (TablesStep α) :=
  ds.map fun d => .on i (.declare d.1 d.2.1 d.2.2)

theorem after_declarations (as : List (TablesStep α)) (i : Nat) (ds : List (Int × String × α)) :
    after (as ++ declarations i ds) i =
      ds.foldl (fun t d => t.afterStep (.declare d.1 d.2.1 d.2.2)) (after as i) := by
  induction ds using List.reverseRecOn with
  | nil => rw [declarations, List.map_nil, List.append_nil]; rfl
  | append_singleton ds d ih =>
    rw [declarations, List.map_append, ← List.append_assoc, List.map_singleton, after_concat,
      List.foldl_append, ← ih, next, Function.update_self]
    rfl

/-- Declarations of different names, or at different levels, can be made in any order. -/
theorem after_declarations_perm (as : List (TablesStep α)) (i : Nat)
    {ds ds' : List (Int × String × α)} (h : ds.Perm ds')
    (hdistinct : (ds.map fun d => (d.1, d.2.1)).Nodup) :
    after (as ++ declarations i ds) i = after (as ++ declarations i ds') i := by
  rw [after_declarations, after_declarations]
  refine h.foldl_eq' (fun d hd e he t => ?_) _
  by_cases hde : d = e
  · rw [hde]
  · exact Table.afterStep_declare_comm
      (fun hkey => hde (List.inj_on_of_nodup_map hdistinct hd he hkey)) _ _ t

/-- **The text of a table is canonical.** Whatever tables are opened, closed, written to and copied,
the text of each of them lists the levels from the innermost one to the outermost one, and at each
level one line for every name bound there, in strictly increasing byte order, with the value most
recently bound to it there. What a name is bound to stands in the first line with the name. Steps
that leave the same bindings at each level lead to the same text. In particular, declarations that
are pairwise of different names or at different levels can be made in any order. -/
theorem dump_canonical (as : List (TablesStep α)) (i : Nat) :
    (∃ blocks, Lists (history as i) blocks ∧
      (∀ render, (after as i).dump render = String.join (blocks.flatMap (Block.lines render))) ∧
      ∀ name, (after as i).get? name = (blocks.flatMap Block.bindings).lookup name) ∧
    (∀ bs j, Table.SameBindings (history as i) (history bs j) →
      ∀ render, (after as i).dump render = (after bs j).dump render) ∧
    ∀ ds ds' : List (Int × String × α), ds.Perm ds' → (ds.map fun d => (d.1, d.2.1)).Nodup →
      Table.SameBindings (history (as ++ declarations i ds) i)
        (history (as ++ declarations i ds') i) ∧
      ∀ render, (after (as ++ declarations i ds) i).dump render =
        (after (as ++ declarations i ds') i).dump render := by
  refine ⟨⟨(after as i).blocks, ?_, fun render => ?_, fun name => ?_⟩, ?_, ?_⟩
  · rw [after_eq_afterSteps]
    exact Table.lists_blocks _
  · exact Table.dump_eq_join render _
  · exact Table.get?_eq_lookup _ name
  · intro bs j h render
    rw [after_eq_afterSteps as, after_eq_afterSteps bs, Table.sameBindings_iff.1 h]
  · intro ds ds' hperm hdistinct
    have hsame := after_declarations_perm as i hperm hdistinct
    refine ⟨Table.sameBindings_iff.2 ?_, fun render => by rw [hsame]⟩
    rw [← after_eq_afterSteps, ← after_eq_afterSteps, hsame]

/-- `z` at the outermost level, and `é` and `z` in a scope. -/
private def stepsInOrder : List (TablesStep Value) :=
  [.on 0 (.save "z" (.int 1)), .on 0 .openScope, .on 0 (.save "é" .unit),
    .on 0 (.save "z" (.bool true))]

/-- The same bindings in a copy, with a value that is replaced and a scope that is closed. -/
private def stepsInCopy : List (TablesStep Value) :=
  [.on 0 (.save "z" (.int 9)), .on 0 .openScope, .on 0 (.save "x" (.int 2)), .on 0 .closeScope,
    .on 0 .openScope, .on 0 (.declare 1 "z" (.bool true)), .on 0 (.declare 0 "z" (.int 1)),
    .copy 0 7, .on 0 .closeScope, .on 7 (.save "é" .unit)]

/-- Both ways give one text, in which `z` comes before `é`; and two more names can be declared in
either order. -/
theorem dump_canonical_of_copy :
    (after stepsInOrder 0).dump Value.text =
        "level 1:\n\tz => true\n\té => ()\nlevel 0:\n\tz => 1\n" ∧
      (after stepsInOrder 0).dump Value.text = (after stepsInCopy 7).dump Value.text ∧
      (after (stepsInOrder ++ declarations 0 [(0, "é", .int 4), (1, "", .int 5)]) 0).dump
          Value.text =
        (after (stepsInOrder ++ declarations 0 [(1, "", .int 5), (0, "é", .int 4)]) 0).dump
          Value.text := by
  obtain ⟨-, hsame, hdeclared⟩ := dump_canonical stepsInOrder 0
  refine ⟨by decide +kernel, hsame stepsInCopy 7 (Table.sameBindings_iff.2 ?_) Value.text,
    (hdeclared _ _ (.swap _ _ _) (by decide)).2 Value.text⟩
  rfl

end Tables

end Reckon
