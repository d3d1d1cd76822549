import Reckon.Decimal.Shortest

/-!
# Double precision numbers

A double precision number is carried as its 64 bits, so that nothing of a not-a-number is lost.
Programs compare and show such numbers but do not compute with them.

* `Binary64.same`: equality of numbers; the two zeros are equal, a not-a-number differs from itself.
* `Binary64.compare?`: the order of numbers, none with a not-a-number.
* `Binary64.text`: the shortest digits that read back, without an exponent.
-/

namespace Reckon

/-- A double precision number, given by its bits. -/
structure Binary64 where
  bits : UInt64
deriving DecidableEq, Repr

namespace Binary64

/-- The sign bit is set. -/
def isNegative (x : Binary64) : Bool := decide (Nat.pow 2 63 ≤ x.bits.toNat)

/-- The bits without the sign. -/
def magnitude (x : Binary64) : Nat := x.bits.toNat % Nat.pow 2 63

/-- The exponent field. -/
def exponent (x : Binary64) : Nat := x.magnitude / Nat.pow 2 52

/-- The fraction field. -/
def fraction (x : Binary64) : Nat := x.magnitude % Nat.pow 2 52

/-- Not a number: the greatest exponent with a fraction. -/
def isNaN (x : Binary64) : Bool := x.exponent == 2047 && x.fraction != 0

/-- Infinite: the greatest exponent without a fraction. -/
def isInfinite (x : Binary64) : Bool := x.exponent == 2047 && x.fraction == 0

/-- An integer that orders the numbers as their values do. -/
def rank (x : Binary64) : Int := if x.isNegative then -(x.magnitude : Int) else x.magnitude

/-- Equality of numbers. -/
def same (x y : Binary64) : Bool := !x.isNaN && !y.isNaN && x.rank == y.rank

/-- The order of two numbers. -/
def compare? (x y : Binary64) : Option Ordering :=
  if x.isNaN || y.isNaN then none else some (compare x.rank y.rank)

/-- The digits of a finite number without its sign. -/
def digits (x : Binary64) : List Char :=
  if x.magnitude = 0 then ['0']
  else
    let (f, k) :=
      if x.exponent = 0 then Decimal.shortest x.fraction (-1074) false
      else
        Decimal.shortest (Nat.pow 2 52 + x.fraction) (x.exponent - 1075)
          (x.fraction == 0 && x.exponent != 1)
    Decimal.positional f k

/-- How a number is written. -/
def text (x : Binary64) : String :=
  if x.isNaN then "NaN"
  else if x.isInfinite then (if x.isNegative then "-Inf" else "+Inf")
  else String.ofList (if x.isNegative then '-' :: x.digits else x.digits)

end Binary64

end Reckon
