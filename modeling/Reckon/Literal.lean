/-!
# Integer literals

An integer literal is an optional sign and at least one decimal digit, and its value fits a signed
word of 32 bits.

* `Literal.integer?`: the integer that characters denote.
* `Literal.word?`: the word that a spelling denotes.
-/

namespace Reckon.Literal

/-- The number that a nonempty run of digits denotes. -/
def natural? (cs : List Char) : Option Nat :=
  if cs ≠ [] ∧ cs.all Char.isDigit then some (Nat.ofDigitChars 10 cs 0) else none

/-- The integer that digits with an optional sign denote. -/
def integer? : List Char → Option Int
  | '+' :: cs => (natural? cs).map Int.ofNat
  | '-' :: cs => (natural? cs).map fun n => -Int.ofNat n
  | cs => (natural? cs).map Int.ofNat

/-- The word that a spelling denotes. -/
def word? (spelling : String) : Option Int32 :=
  match integer? spelling.toList with
  | none => none
  | some n =>
    if Int32.minValue.toInt ≤ n ∧ n ≤ Int32.maxValue.toInt then some (Int32.ofInt n) else none

end Reckon.Literal
