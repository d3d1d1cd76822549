import Reckon.Expr

/-!
# Writing expressions

Every compound expression is written between parentheses, so the text determines the tree.

* `Expr.chars`, `Expr.text`: one expression.
* `Program.text`: a program, one expression on each line.
-/

namespace Reckon

/-- The characters of a truth value. -/
def boolChars (b : Bool) : List Char :=
  if b then ['t', 'r', 'u', 'e'] else ['f', 'a', 'l', 's', 'e']

/-- The decimal characters of a word. -/
def wordChars (n : Int32) : List Char :=
  if n.toInt < 0 then '-' :: Nat.toDigits 10 n.toInt.natAbs else Nat.toDigits 10 n.toInt.natAbs

namespace Expr

/-- The characters of an expression. -/
def chars : Expr → List Char
  | int _ n => wordChars n
  | bool _ b => boolChars b
  | var _ _ x => x.toList
  | unary _ _ op e => '(' :: (op.spelling.toList ++ e.chars ++ [')'])
  | binary _ _ op a b | assign _ _ op a b =>
    '(' :: (a.chars ++ ' ' :: (op.symbol ++ ' ' :: (b.chars ++ [')'])))
  | print _ e => ['(', 'p', 'r', 'i', 'n', 't', ' '] ++ e.chars ++ [')']

/-- How an expression is written. -/
def text (e : Expr) : String := String.ofList e.chars

end Expr

namespace Program

/-- The characters of a program. -/
def chars (p : Program) : List Char := p.flatMap fun e => e.chars ++ ['\n']

/-- How a program is written: one expression on each line. -/
def text (p : Program) : String := String.ofList (chars p)

end Program

end Reckon
