/-!
# Timestamps

A date is a year of four digits, a month and a day, which may have one digit. A time of day may
follow it: behind a `T` with its distance from universal time, or behind spaces without.

* `isTimestamp`: a text is written like a timestamp.
-/

namespace Reckon.Yaml

/-- Reads a number of one or two digits, two if there are two, that is less than `limit`. -/
def twoDigits? (limit : Nat) (cs : List Char) : Option (Nat × List Char) :=
  let ds := (cs.take 2).takeWhile Char.isDigit
  let n := ds.foldl (fun n d => n * 10 + (d.toNat - '0'.toNat)) 0
  if ds.isEmpty || decide (limit ≤ n) then none else some (n, cs.drop ds.length)

/-- Reads one character. -/
def char? (c : Char) : List Char → Option (List Char)
  | d :: cs => if c = d then some cs else none
  | [] => none

/-- Every fourth year is a leap year, except that of four centuries only one begins with one. -/
def isLeapYear (year : Nat) : Bool :=
  year % 4 == 0 && (year % 100 != 0 || year % 400 == 0)

/-- The number of days in a month. -/
def daysInMonth (year month : Nat) : Nat :=
  if month = 2 then (if isLeapYear year then 29 else 28)
  else if [4, 6, 9, 11].contains month then 30
  else 31

/-- Reads a date that the calendar has. -/
def date? (cs : List Char) : Option (List Char) := do
  let ds := cs.takeWhile Char.isDigit
  if ds.length ≠ 4 then none
  let year := ds.foldl (fun n d => n * 10 + (d.toNat - '0'.toNat)) 0
  let (month, cs) ← twoDigits? 13 (← char? '-' (cs.drop 4))
  let (day, cs) ← twoDigits? 100 (← char? '-' cs)
  if month = 0 ∨ day = 0 ∨ daysInMonth year month < day then none else some cs

/-- Skips a fraction of a second. -/
def skipFraction : List Char → List Char
  | c :: d :: cs =>
    if (c == '.' || c == ',') && d.isDigit then cs.dropWhile Char.isDigit else c :: d :: cs
  | cs => cs

/-- Reads a time of day. -/
def clock? (cs : List Char) : Option (List Char) := do
  let (_, cs) ← twoDigits? 24 cs
  let (_, cs) ← twoDigits? 60 (← char? ':' cs)
  let (_, cs) ← twoDigits? 60 (← char? ':' cs)
  return skipFraction cs

/-- Written like a distance from universal time. -/
def isZone : List Char → Bool
  | ['Z'] => true
  | [sign, a, b, ':', c, d] =>
    (sign == '+' || sign == '-')
      && [a, b, c, d].all Char.isDigit
      && (twoDigits? 25 [a, b]).isSome
      && (twoDigits? 61 [c, d]).isSome
  | _ => false

/-- Written like a timestamp. -/
def isTimestamp (cs : List Char) : Bool :=
  match date? cs with
  | none => false
  | some [] => true
  | some (c :: rest) =>
    if c = 'T' ∨ c = 't' then (clock? rest).any isZone
    else if c = ' ' then (clock? (rest.dropWhile (· == ' '))).any List.isEmpty
    else false

end Reckon.Yaml
