/-!
# Shortest decimals

A positive binary number `m * 2 ^ q` stands for every real number that rounds to it. Its shortest
decimal is the multiple of the greatest power of ten that rounds to it; if two multiples do, the
nearer one, and of two equally near ones the even one.

* `Rounding`: the number and the reals that round to it, over one common denominator.
* `Rounding.nearest?`: the decimal on the grid of one power of ten.
* `Rounding.shortest`: the decimal on the coarsest grid that has one.
* `positional`: digits and a power of ten without an exponent mark.
-/

namespace Reckon.Decimal

/-- The number `value / den` with the reals that round to it: from `below / den` under it to
`above / den` over it, the two ends included if `closed`. -/
structure Rounding where
  value : Nat
  below : Nat
  above : Nat
  den : Nat
  closed : Bool

namespace Rounding

/-- The reals that round to `m * 2 ^ q`. The gap under the number is half as wide where `narrow`,
that is, where the next smaller number has a smaller exponent. -/
def ofBinary (m : Nat) (q : Int) (narrow : Bool) : Rounding where
  value := 4 * m * Nat.pow 2 q.toNat
  below := (if narrow then 1 else 2) * Nat.pow 2 q.toNat
  above := 2 * Nat.pow 2 q.toNat
  den := 4 * Nat.pow 2 (-q).toNat
  closed := m % 2 == 0

/-- A distance lies within a gap. -/
def within (r : Rounding) (distance gap : Nat) : Bool :=
  if r.closed then decide (distance ≤ gap) else decide (distance < gap)

/-- The nearest multiple of `10 ^ k` that rounds to the number, as its factor. -/
def nearest? (r : Rounding) (k : Int) : Option Nat :=
  let up := Nat.pow 10 (-k).toNat
  let unit := r.den * Nat.pow 10 k.toNat
  let n := r.value * up
  let f := n / unit
  let excess := n - f * unit
  let lack := (f + 1) * unit - n
  match r.within excess (r.below * up), r.within lack (r.above * up) with
  | true, true =>
    if excess < lack then some f
    else if lack < excess then some (f + 1)
    else if f % 2 = 0 then some f else some (f + 1)
  | true, false => some f
  | false, true => some (f + 1)
  | false, false => none

/-- The coarsest of the grids `10 ^ top`, `10 ^ (top - 1)`, … that has a decimal, and its factor. -/
def search (r : Rounding) (top : Int) : Nat → Nat × Int
  | 0 => (0, top)
  | count + 1 =>
    match r.nearest? top with
    | some f => (f, top)
    | none => r.search (top - 1) count

end Rounding

/-- A power of ten above `m * 2 ^ q`, by the number of its binary digits. -/
def bound (m : Nat) (q : Int) : Int := (m.log2 + 1 + q) * 30103 / 100000 + 1

/-- The shortest decimal of `m * 2 ^ q`, as a factor and a power of ten. Seventeen digits are always
enough, and `bound` exceeds the number by less than three powers of ten. -/
def shortest (m : Nat) (q : Int) (narrow : Bool) : Nat × Int :=
  (Rounding.ofBinary m q narrow).search (bound m q) 21

/-- Writes `f * 10 ^ k` with a decimal point where it has a fraction and never with an exponent. -/
def positional (f : Nat) (k : Int) : List Char :=
  let ds := Nat.toDigits 10 f
  if 0 ≤ k then ds ++ List.replicate k.toNat '0'
  else
    let places := (-k).toNat
    if places < ds.length then ds.take (ds.length - places) ++ '.' :: ds.drop (ds.length - places)
    else '0' :: '.' :: (List.replicate (places - ds.length) '0' ++ ds)

end Reckon.Decimal
