import Reckon.Text.Letters
import Reckon.Text.Printables

/-!
# Character classes

The three classes that reading and quoting depend on.

* `isLetter`: may start and continue a name.
* `isBlank`: separates tokens.
* `isPrintable`: stands for itself inside quotes.

Below `0x80` each class is given directly; from `0x80` on it is a table of ranges.
-/

namespace Reckon.Text

/-- `n` lies in one of the closed ranges `rs`. -/
def inRanges (rs : List (Nat × Nat)) (n : Nat) : Bool :=
  rs.any fun r => decide (r.1 ≤ n) && decide (n ≤ r.2)

/-- A letter of any script. -/
def isLetter (c : Char) : Bool :=
  if c.toNat < 0x80 then c.isAlpha else inRanges letterRanges c.toNat

/-- Closed ranges of the white space characters. -/
def blankRanges : List (Nat × Nat) :=
  [
    (0x09, 0x0d), (0x20, 0x20), (0x85, 0x85), (0xa0, 0xa0), (0x1680, 0x1680), (0x2000, 0x200a),
    (0x2028, 0x2029), (0x202f, 0x202f), (0x205f, 0x205f), (0x3000, 0x3000)
  ]

/-- White space: the ASCII blanks, the next-line and no-break characters and the wider spaces. -/
def isBlank (c : Char) : Bool := inRanges blankRanges c.toNat

/-- A character that quoted text shows as itself. Among the blanks only the ASCII space is one. -/
def isPrintable (c : Char) : Bool :=
  if c.toNat < 0x80 then decide (0x20 ≤ c.toNat) && decide (c.toNat < 0x7f)
  else inRanges printableRanges c.toNat

end Reckon.Text
