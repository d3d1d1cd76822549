/-!
# Locations

A location is a line and a column in a named source. Both count from one, and a column counts
characters.

* `Location.start`: where a source begins.
* `Location.after`: the location behind one character.
* `Location.afterAll`: the location behind a run of characters.
* `Located`: a cause together with the location it is reported at.
-/

namespace Reckon

/-- A line and a column in a named source. -/
structure Location where
  file : String
  line : Int
  col : Int
deriving DecidableEq, Repr, Inhabited

namespace Location

/-- The beginning of the source `file`. -/
def start (file : String) : Location := ⟨file, 1, 1⟩

/-- The place of what belongs to no source. -/
def nowhere : Location := ⟨"", 0, 0⟩

/-- The location behind the character `c`: a line feed starts the next line. -/
def after (l : Location) (c : Char) : Location :=
  if c = '\n' then { l with line := l.line + 1, col := 1 } else { l with col := l.col + 1 }

/-- The location behind the characters `cs`. -/
def afterAll (l : Location) (cs : List Char) : Location := cs.foldl after l

@[simp] theorem afterAll_nil (l : Location) : l.afterAll [] = l := rfl

@[simp] theorem afterAll_cons (l : Location) (c : Char) (cs : List Char) :
    l.afterAll (c :: cs) = (l.after c).afterAll cs := rfl

theorem afterAll_append (l : Location) (cs ds : List Char) :
    l.afterAll (cs ++ ds) = (l.afterAll cs).afterAll ds := by
  simp [afterAll]

/-- How a location is written. -/
def text (l : Location) : String :=
  "[" ++ l.file ++ "] line: " ++ toString l.line ++ ", col: " ++ toString l.col

end Location

/-- A cause with the location it is reported at. -/
structure Located (ε : Type) where
  loc : Location
  cause : ε
deriving DecidableEq, Repr

end Reckon
