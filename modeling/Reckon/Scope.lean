import Reckon.Scope.Level

/-!
# Scopes

A table is a stack of levels over an outermost one that is never closed. A name means what the
innermost level that binds it says.

* `Table.openScope`, `Table.close?`: entering and leaving a level.
* `Table.declare?`, `Table.save`: binding a name at a numbered level, or at the innermost one.
* `Table.get?`: what a name is bound to.
* `Table.dump`: the bindings of all levels as text, innermost level first.
-/

namespace Reckon

variable {α : Type}

/-- The open levels, innermost first, over the outermost level. -/
structure Table (α : Type) where
  inner : List (Level α)
  outer : Level α

namespace Table

/-- The table with nothing but an empty outermost level. -/
def empty : Table α := ⟨[], .empty⟩

instance : Inhabited (Table α) := ⟨empty⟩

/-- The number of the innermost level; the outermost one has number zero. -/
def depth (t : Table α) : Nat := t.inner.length

/-- The levels, innermost first. -/
def levels (t : Table α) : List (Level α) := t.inner ++ [t.outer]

/-- Opens a level. -/
def openScope (t : Table α) : Table α := { t with inner := .empty :: t.inner }

/-- Drops the innermost level, unless it is the outermost one. -/
def close? (t : Table α) : Option (Table α) :=
  match t.inner with
  | [] => none
  | _ :: rest => some { t with inner := rest }

/-- Binds a name at the innermost level. -/
def save (t : Table α) (name : String) (v : α) : Table α :=
  match t.inner with
  | [] => { t with outer := t.outer.insert name v }
  | l :: rest => { t with inner := l.insert name v :: rest }

/-- Binds a name at the outermost level. -/
def saveOuter (t : Table α) (name : String) (v : α) : Table α :=
  { t with outer := t.outer.insert name v }

/-- Binds a name at the level with a number, if there is such a level. -/
def declare? (t : Table α) (level : Int) (name : String) (v : α) : Option (Table α) :=
  if level = 0 then some (t.saveOuter name v)
  else if 0 < level ∧ level ≤ t.depth then
    let fromTop := t.depth - level.toNat
    some { t with inner := t.inner.modify fromTop fun l => l.insert name v }
  else none

/-- What the first of the levels that bind a name binds it to. -/
def lookup? (name : String) : List (Level α) → Option α
  | [] => none
  | l :: rest =>
    match l.get? name with
    | some v => some v
    | none => lookup? name rest

/-- What a name is bound to: the innermost level that binds it decides. -/
def get? (t : Table α) (name : String) : Option α := lookup? name t.levels

theorem get?_save (t : Table α) (name other : String) (v : α) :
    (t.save name v).get? other = if other = name then some v else t.get? other := by
  obtain ⟨inner, outer⟩ := t
  cases inner with
  | nil =>
    simp only [get?, save, levels, List.nil_append, lookup?, Level.get?_insert]
    by_cases h : other = name <;> simp [h]
  | cons l rest =>
    simp only [get?, save, levels, List.cons_append, lookup?, Level.get?_insert]
    by_cases h : other = name <;> simp [h]

theorem depth_save (t : Table α) (name : String) (v : α) : (t.save name v).depth = t.depth := by
  obtain ⟨inner, outer⟩ := t
  cases inner <;> rfl

/-! ## Text -/

/-- The lines of one entry list. -/
def entryLines (render : α → String) (entries : List (String × α)) : String :=
  String.join (entries.map fun e => "\t" ++ e.1 ++ " => " ++ render e.2 ++ "\n")

/-- The lines of the levels, the first of which has the number of those after it. -/
def levelLines (render : α → String) : List (Level α) → String
  | [] => ""
  | l :: rest =>
    "level " ++ toString rest.length ++ ":\n" ++ entryLines render l.entries
      ++ levelLines render rest

/-- The bindings of all levels, innermost level first and names in byte order. -/
def dump (render : α → String) (t : Table α) : String := levelLines render t.levels

end Table

end Reckon
