import Reckon.Location
import Reckon.Operator
import Reckon.Text.Quoted

/-!
# Tokens

A token is a kind, the characters it was read from and the location of the first of them.

* `Token.Kind`: what a token stands for. Every binary operator is a kind of its own.
* `Token.Kind.ofCode`: kinds by number; a number that names no kind is kept as it is.
* `Token.ofWord`: an identifier token, unless the word is a keyword.
-/

namespace Reckon

namespace Token

/-- What a token stands for. `other` is a code that names no kind; no text contains one. -/
inductive Kind
  | eof
  | integer
  | identifier
  | print
  | bool (value : Bool)
  | leftParen
  | rightParen
  | binary (op : BinaryOp)
  | bitNot
  | logicNot
  | other (code : Int)
deriving DecidableEq, Repr

namespace Kind

/-- The kinds in the order of their codes. -/
def all : List Kind :=
  [
    .eof, .integer, .identifier, .print, .bool true, .bool false, .leftParen, .rightParen,
    .binary (.arith .add), .binary (.arith .sub), .binary (.arith .mul), .binary (.arith .div),
    .binary (.arith .mod), .binary (.arith .bitAnd), .binary (.arith .bitOr),
    .binary (.arith .bitXor), .bitNot, .binary (.logic .and), .binary (.logic .or), .logicNot,
    .binary (.arith .shiftLeft), .binary (.arith .shiftRight), .binary (.order .lt),
    .binary (.order .le), .binary (.order .gt), .binary (.order .ge), .binary .equal,
    .binary .notEqual, .binary .assign, .binary (.arithAssign .add), .binary (.arithAssign .sub),
    .binary (.arithAssign .mul), .binary (.arithAssign .div), .binary (.arithAssign .mod),
    .binary (.arithAssign .bitAnd), .binary (.arithAssign .bitOr), .binary (.arithAssign .bitXor),
    .binary (.arithAssign .shiftLeft), .binary (.arithAssign .shiftRight),
    .binary (.logicAssign .and), .binary (.logicAssign .or)
  ]

/-- The kind with a code. -/
def ofCode (code : Int) : Kind :=
  if code < 0 then .other code else (all[code.toNat]?).getD (.other code)

/-- The name of a kind. -/
def name : Kind → String
  | eof => "EOF"
  | integer => "Integer"
  | identifier => "Identifier"
  | print => "Print"
  | bool true => "True"
  | bool false => "False"
  | leftParen => "LeftParen"
  | rightParen => "RightParen"
  | binary op => operatorName op
  | bitNot => "BitwiseNot"
  | logicNot => "LogicalNot"
  | other code => "TokenKind(" ++ toString code ++ ")"
where
  /-- The name of an operator's kind. -/
  operatorName : BinaryOp → String
    | .arith .add => "Plus"
    | .arith .sub => "Minus"
    | .arith .mul => "Star"
    | .arith .div => "Slash"
    | .arith .mod => "Mod"
    | .arith .bitAnd => "BitwiseAnd"
    | .arith .bitOr => "BitwiseOr"
    | .arith .bitXor => "BitwiseXor"
    | .arith .shiftLeft => "LeftShift"
    | .arith .shiftRight => "RightShift"
    | .order .lt => "LessThan"
    | .order .le => "LessThanOrEqual"
    | .order .gt => "GreaterThan"
    | .order .ge => "GreaterThanOrEqual"
    | .equal => "Equal"
    | .notEqual => "NotEqual"
    | .logic .and => "LogicalAnd"
    | .logic .or => "LogicalOr"
    | .assign => "Assign"
    | .arithAssign .add => "PlusAssign"
    | .arithAssign .sub => "MinusAssign"
    | .arithAssign .mul => "StarAssign"
    | .arithAssign .div => "SlashAssign"
    | .arithAssign .mod => "ModAssign"
    | .arithAssign .bitAnd => "BitwiseAndAssign"
    | .arithAssign .bitOr => "BitwiseOrAssign"
    | .arithAssign .bitXor => "BitwiseXorAssign"
    | .arithAssign .shiftLeft => "LeftShiftAssign"
    | .arithAssign .shiftRight => "RightShiftAssign"
    | .logicAssign .and => "LogicalAndAssign"
    | .logicAssign .or => "LogicalOrAssign"

/-- The kind with a name. -/
def ofName? (name : String) : Option Kind := all.find? fun k => k.name == name

/-- The kind of a word: a keyword, or else an identifier. -/
def ofWord (word : String) : Kind :=
  if word = "print" then .print
  else if word = "true" then .bool true
  else if word = "false" then .bool false
  else .identifier

end Kind

end Token

/-- A kind, the characters it was read from and where they begin. -/
structure Token where
  kind : Token.Kind
  spelling : String
  loc : Location
deriving DecidableEq, Repr

namespace Token

/-- The token of a word. -/
def ofWord (word : String) (loc : Location) : Token := ⟨.ofWord word, word, loc⟩

/-- A token of a given kind, where an identifier that is spelled like a keyword is that keyword. -/
def make (kind : Kind) (spelling : String) (loc : Location) : Token :=
  if kind = .identifier then .ofWord spelling loc else ⟨kind, spelling, loc⟩

/-- The end of the input at `loc`. -/
def eofAt (loc : Location) : Token := ⟨.eof, "", loc⟩

/-- How a token is written in a trace. -/
def text (t : Token) : String :=
  t.loc.text ++ " " ++ t.kind.name ++ " " ++ Text.quote t.spelling

end Token

end Reckon
