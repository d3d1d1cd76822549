import Reckon.Yaml.Timestamp

/-!
# What a plain scalar stands for

A scalar without quotes stands for nothing, a truth value, an integer, a number with a fraction or a
timestamp if it is written like one, and else for its own text. The text `<<` as a key merges
mappings.

* `Tag.ofPlain`: the tag of a plain scalar.
-/

namespace Reckon.Yaml

/-- What a scalar stands for. -/
inductive Tag
  | null
  | bool (value : Bool)
  | int
  | float
  | timestamp
  | merge
  | str
deriving DecidableEq, Repr

/-- How a tag is written. -/
def Tag.text : Tag → String
  | null => "!!null"
  | bool _ => "!!bool"
  | int => "!!int"
  | float => "!!float"
  | timestamp => "!!timestamp"
  | merge => "!!merge"
  | str => "!!str"

/-! ## Numbers -/

/-- The value of a digit in a base, if it is one. -/
def digit? (base : Nat) (c : Char) : Option Nat :=
  let n :=
    if c.isDigit then c.toNat - '0'.toNat
    else if c.isLower then c.toNat - 'a'.toNat + 10
    else if c.isUpper then c.toNat - 'A'.toNat + 10
    else base
  if n < base then some n else none

/-- The value of digits in a base. -/
def digits? (base : Nat) (cs : List Char) : Option Nat :=
  cs.foldl (fun acc c => acc.bind fun n => (digit? base c).map (n * base + ·)) (some 0)

/-- The value of an integer without a sign: in base 16, 8 or 2 after `0x`, `0o` or `0b`, in base 8
after another zero, and else in base 10. -/
def unsigned? : List Char → Option Nat
  | [] => none
  | ['0'] => some 0
  | '0' :: c :: d :: cs =>
    if c = 'x' ∨ c = 'X' then digits? 16 (d :: cs)
    else if c = 'o' ∨ c = 'O' then digits? 8 (d :: cs)
    else if c = 'b' ∨ c = 'B' then digits? 2 (d :: cs)
    else digits? 8 (c :: d :: cs)
  | '0' :: cs => digits? 8 cs
  | cs => digits? 10 cs

/-- Splits off a sign. -/
def splitSign : List Char → Option Char × List Char
  | '+' :: cs => (some '+', cs)
  | '-' :: cs => (some '-', cs)
  | cs => (none, cs)

/-- A number with this sign has at most 64 bits; only one without a sign may use all of them. -/
def fitsInteger (sign : Option Char) (n : Nat) : Bool :=
  match sign with
  | none => decide (n < Nat.pow 2 64)
  | some '-' => decide (n ≤ Nat.pow 2 63)
  | some _ => decide (n < Nat.pow 2 63)

/-- Written like an integer in a base that `0b` or `0o` gives, with a sign behind it. -/
def isInnerSigned : List Char → Bool
  | '0' :: c :: cs =>
    let (sign, body) := splitSign cs
    let base := if c = 'b' then 2 else if c = 'o' then 8 else 0
    match sign, body, digits? base body with
    | some _, _ :: _, some n => fitsInteger sign n
    | _, _, _ => false
  | _ => false

/-- Written like an integer of at most 64 bits. -/
def isInteger (cs : List Char) : Bool :=
  let (sign, body) := splitSign cs
  (unsigned? body).any (fitsInteger sign) || isInnerSigned cs

/-- The digits of a decimal number as an integer, and the power of ten that they are multiplied
by. -/
structure Scientific where
  digits : List Char
  exponent : Int

/-- Reads an exponent mark with its digits, or nothing. -/
def exponent? : List Char → Option Int
  | [] => some 0
  | e :: cs =>
    if e = 'e' ∨ e = 'E' then
      let (sign, body) := splitSign cs
      if body.isEmpty then none
      else
        match digits? 10 body with
        | none => none
        | some n => some (if sign = some '-' then -(n : Int) else n)
    else none

/-- Reads a decimal number without a sign: digits with an optional point, and an optional
exponent. -/
def scientific? (cs : List Char) : Option Scientific :=
  let whole := cs.takeWhile Char.isDigit
  let (fraction, rest) :=
    match cs.dropWhile Char.isDigit with
    | '.' :: tail => (tail.takeWhile Char.isDigit, tail.dropWhile Char.isDigit)
    | tail => ([], tail)
  if whole.isEmpty && fraction.isEmpty then none
  else
    match exponent? rest with
    | none => none
    | some e => some ⟨whole ++ fraction, e - fraction.length⟩

/-- The number is too great for double precision: it rounds to a power of two that has no exponent
there. -/
def Scientific.overflows (s : Scientific) : Bool :=
  let ds := s.digits.dropWhile (· == '0')
  let size : Int := ds.length + s.exponent
  if ds.isEmpty || decide (size < 300) then false
  else if 320 < size then true
  else
    let n := (digits? 10 ds).getD 0
    let least := (Nat.pow 2 54 - 1) * Nat.pow 2 970
    decide (least * Nat.pow 10 (-s.exponent).toNat ≤ n * Nat.pow 10 s.exponent.toNat)

/-- Written like a decimal number that double precision can hold. -/
def isDecimal (cs : List Char) : Bool :=
  match scientific? (splitSign cs).2 with
  | none => false
  | some s => !s.overflows

/-- Every underscore stands between two digits. -/
def dividesDigits : List Char → Bool
  | [] => true
  | ['_'] => false
  | '_' :: d :: cs => d.isDigit && dividesDigits (d :: cs)
  | c :: cs => (c.isDigit || cs.head? != some '_') && dividesDigits cs

/-! ## Tags -/

/-- The words with a meaning of their own. -/
def wordTag? (text : String) : Option Tag :=
  if ["true", "True", "TRUE"].contains text then some (.bool true)
  else if ["false", "False", "FALSE"].contains text then some (.bool false)
  else if ["", "~", "null", "Null", "NULL"].contains text then some .null
  else if [".nan", ".NaN", ".NAN", ".inf", ".Inf", ".INF", "+.inf", "+.Inf", "+.INF",
      "-.inf", "-.Inf", "-.INF"].contains text then some .float
  else if text = "<<" then some .merge
  else none

/-- What a plain scalar stands for. A number that starts with a digit or a sign may be written with
underscores anywhere, one that starts with a point only with underscores between its digits. -/
def Tag.ofPlain (text : String) : Tag :=
  match wordTag? text with
  | some tag => tag
  | none =>
    match text.toList with
    | [] => .null
    | c :: cs =>
      let plain := (c :: cs).filter (· ≠ '_')
      if c = '.' then (if dividesDigits (c :: cs) && isDecimal plain then .float else .str)
      else if c.isDigit || c = '+' || c = '-' then
        if isTimestamp (c :: cs) then .timestamp
        else if isInteger plain then .int
        else if isDecimal plain then .float
        else .str
      else .str

end Reckon.Yaml
