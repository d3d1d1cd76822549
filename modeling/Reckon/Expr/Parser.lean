import Reckon.Expr
import Reckon.Literal
import Reckon.Token

/-!
# Parsing by binding power

Every kind of token has a binding power. Parsing an expression at a threshold reads a seed (a
literal, a name, a prefix operator with its operand, or a parenthesised expression) and then extends
it as long as the next token binds tighter than the threshold; the operand to the right of an
operator is parsed at the operator's own power, or just below it if the operator groups to the
right.

Behind the last token the end of the input is seen again and again. A step says which tokens remain,
also when it fails.

* `parseExpr`, `seed`, `extend`: an expression, its seed, and its extension by operators, with one
  equation for each form of the remaining tokens.
* `parseExpr_rest`, `seed_rest`: what remains is an end part of what was given.
* `parseProgram`, `parse`: expressions up to the end of the input.
-/

namespace Reckon

open Token (Kind)

/-- Why parsing stops. -/
inductive ParseError
  | missingRightParen (found : Kind)
  | integerLiteral (spelling : String)
  | endOfInput
  | unexpectedToken (kind : Kind) (spelling : String)
  | strayPrefixOp (spelling : String)
  | notInfixOp (kind : Kind)
deriving DecidableEq, Repr

/-- The wording of a parsing error. -/
def ParseError.message : ParseError → String
  | missingRightParen found =>
    "missing right parenthesis for parenthesized expression, found " ++ found.name
  | integerLiteral spelling => "invalid integer literal " ++ spelling
  | endOfInput => "unexpected end of input"
  | unexpectedToken kind spelling =>
    "unexpected token " ++ kind.name ++ " " ++ Text.quote spelling
  | strayPrefixOp spelling =>
    "unexpected prefix operator " ++ Text.quote spelling ++
      "; separate expressions with parentheses"
  | notInfixOp kind => kind.name ++ " is not an infix operator"

/-! ## Binding powers -/

/-- How tight an operator binds. -/
def BinaryOp.power : BinaryOp → Int
  | .assign | .arithAssign _ | .logicAssign _ => 10
  | .logic .or => 20
  | .logic .and => 30
  | .arith .bitOr => 40
  | .arith .bitXor => 50
  | .arith .bitAnd => 60
  | .equal | .notEqual => 70
  | .order _ => 80
  | .arith .shiftLeft | .arith .shiftRight => 90
  | .arith .add | .arith .sub => 100
  | .arith .mul | .arith .div | .arith .mod => 110

namespace Token.Kind

/-- The threshold at which everything that can extend an expression does. -/
def leastPower : Int := -1

/-- The power of the prefix operators that take the shortest operand. -/
def greatestPower : Int := 120

/-- How tight a token binds to the expression on its left. A token that cannot extend an expression
has the least power. -/
def power : Kind → Int
  | binary op => op.power
  | bitNot | logicNot => greatestPower
  | _ => leastPower

/-- The prefix operator of a kind. -/
def unaryOp? : Kind → Option UnaryOp
  | binary (.arith .add) => some .plus
  | binary (.arith .sub) => some .minus
  | bitNot => some .bitNot
  | logicNot => some .logicNot
  | _ => none

end Token.Kind

/-- The threshold for the operand of a prefix operator. A minus takes all that follows. -/
def UnaryOp.threshold : UnaryOp → Int
  | minus => Kind.leastPower
  | plus | bitNot | logicNot => Kind.greatestPower

/-- Which kinds of token group to the right when they stand in a row. -/
structure Grouping where
  rightward : Kind → Bool

/-- Assignments, multiplication and the two negations group to the right. -/
def Grouping.standard : Grouping where
  rightward
    | .binary op => op.isAssign || op == .arith .mul
    | .bitNot | .logicNot => true
    | _ => false

/-- The threshold for the operand to the right of a token. -/
def Grouping.threshold (g : Grouping) (kind : Kind) : Int :=
  if g.rightward kind then kind.power - 1 else kind.power

/-! ## Steps -/

/-- The outcome of a parsing step and the tokens that remain, also after a failure. -/
structure ParseStep (α : Type) where
  result : Except (Located ParseError) α
  rest : List Token

/-- The kind of the first token; behind the last one there is the end of the input. -/
def headKind : List Token → Kind
  | [] => .eof
  | t :: _ => t.kind

/-- The location of the end of the input: that of the last token. -/
def endLocation (ts : List Token) : Location :=
  match ts.getLast? with
  | some t => t.loc
  | none => .nowhere

/-- Joins two operands at an operator token. -/
def join (left : Expr) (t : Token) (right : Expr) : Except (Located ParseError) Expr :=
  match t.kind with
  | .binary op =>
    if op.isAssign then .ok (.assign t.loc .unknown op left right)
    else .ok (.binary t.loc .unknown op left right)
  | kind =>
    match kind.unaryOp? with
    | some _ => .error ⟨t.loc, .strayPrefixOp t.spelling⟩
    | none => .error ⟨t.loc, .notInfixOp kind⟩

/-- Closes a parenthesis that was opened at `loc`. -/
def closeParen (loc : Location) (s : ParseStep Expr) : ParseStep Expr :=
  match s.result, s.rest with
  | .error e, rest => ⟨.error e, rest⟩
  | .ok e, t :: rest =>
    if t.kind = .rightParen then ⟨.ok e, rest⟩
    else ⟨.error ⟨loc, .missingRightParen t.kind⟩, t :: rest⟩
  | .ok _, [] => ⟨.error ⟨loc, .missingRightParen .eof⟩, []⟩

theorem closeParen_rest (loc : Location) (s : ParseStep Expr) :
    (closeParen loc s).rest <:+ s.rest := by
  obtain ⟨result, rest⟩ := s
  cases result with
  | error e => exact List.suffix_refl rest
  | ok e =>
    cases rest with
    | nil => exact List.suffix_refl []
    | cons t rest =>
      simp only [closeParen]
      split
      · exact List.suffix_cons t rest
      · exact List.suffix_refl _

/-- Wraps what a step yields. -/
def ParseStep.map {α β : Type} (f : α → β) (s : ParseStep α) : ParseStep β :=
  ⟨s.result.map f, s.rest⟩

/-! ## Expressions -/

mutual

/-- `parseExpr` with the fact that its recursion rests on. -/
private def parseExprAux (g : Grouping) (fin : Location) (threshold : Int) (ts : List Token) :
    { s : ParseStep Expr // s.rest <:+ ts.tail } :=
  match ts with
  | [] => ⟨⟨.error ⟨fin, .endOfInput⟩, []⟩, List.suffix_refl []⟩
  | t :: ts =>
    match seedAux g fin t ts with
    | ⟨⟨.error e, rest⟩, hs⟩ => ⟨⟨.error e, rest⟩, hs⟩
    | ⟨⟨.ok left, rest⟩, hs⟩ =>
      have : rest.length ≤ ts.length := hs.length_le
      match extendAux g fin threshold left rest with
      | ⟨r, hr⟩ => ⟨r, hr.trans hs⟩
termination_by (ts.length, 0)

/-- `seed` with the fact that its recursion rests on. -/
private def seedAux (g : Grouping) (fin : Location) (t : Token) (ts : List Token) :
    { s : ParseStep Expr // s.rest <:+ ts } :=
  match t.kind with
  | .leftParen =>
    match parseExprAux g fin Kind.leastPower ts with
    | ⟨s, hs⟩ =>
      ⟨closeParen t.loc s, (closeParen_rest t.loc s).trans (hs.trans (List.tail_suffix ts))⟩
  | .print =>
    match parseExprAux g fin Kind.leastPower ts with
    | ⟨s, hs⟩ => ⟨s.map (.print t.loc), hs.trans (List.tail_suffix ts)⟩
  | .integer =>
    match Literal.word? t.spelling with
    | some n => ⟨⟨.ok (.int t.loc n), ts⟩, List.suffix_refl ts⟩
    | none => ⟨⟨.error ⟨t.loc, .integerLiteral t.spelling⟩, ts⟩, List.suffix_refl ts⟩
  | .bool b => ⟨⟨.ok (.bool t.loc b), ts⟩, List.suffix_refl ts⟩
  | .identifier => ⟨⟨.ok (.var t.loc .unknown t.spelling), ts⟩, List.suffix_refl ts⟩
  | .eof => ⟨⟨.error ⟨t.loc, .endOfInput⟩, ts⟩, List.suffix_refl ts⟩
  | kind =>
    match kind.unaryOp? with
    | some op =>
      match parseExprAux g fin op.threshold ts with
      | ⟨s, hs⟩ => ⟨s.map (.unary t.loc .unknown op), hs.trans (List.tail_suffix ts)⟩
    | none => ⟨⟨.error ⟨t.loc, .unexpectedToken kind t.spelling⟩, ts⟩, List.suffix_refl ts⟩
termination_by (ts.length, 1)

/-- `extend` with the fact that its recursion rests on. -/
private def extendAux (g : Grouping) (fin : Location) (threshold : Int) (left : Expr)
    (ts : List Token) : { s : ParseStep Expr // s.rest <:+ ts } :=
  match ts with
  | [] =>
    ⟨if threshold < Kind.leastPower then ⟨.error ⟨fin, .endOfInput⟩, []⟩ else ⟨.ok left, []⟩,
      by split <;> exact List.suffix_refl []⟩
  | t :: ts =>
    if threshold < t.kind.power then
      match parseExprAux g fin (g.threshold t.kind) ts with
      | ⟨⟨.error e, rest⟩, hs⟩ =>
        ⟨⟨.error e, rest⟩, (hs.trans (List.tail_suffix ts)).trans (List.suffix_cons t ts)⟩
      | ⟨⟨.ok right, rest⟩, hs⟩ =>
        have : rest.length ≤ ts.length := (hs.trans (List.tail_suffix ts)).length_le
        have hs' : rest <:+ t :: ts :=
          (hs.trans (List.tail_suffix ts)).trans (List.suffix_cons t ts)
        match join left t right with
        | .error e => ⟨⟨.error e, rest⟩, hs'⟩
        | .ok e =>
          match extendAux g fin threshold e rest with
          | ⟨r, hr⟩ => ⟨r, hr.trans hs'⟩
    else ⟨⟨.ok left, t :: ts⟩, List.suffix_refl (t :: ts)⟩
termination_by (ts.length, 0)

end

/-- Parses an expression at a threshold. -/
def parseExpr (g : Grouping) (fin : Location) (threshold : Int) (ts : List Token) :
    ParseStep Expr :=
  (parseExprAux g fin threshold ts).val

/-- Parses the expression that the token `t` starts. -/
def seed (g : Grouping) (fin : Location) (t : Token) (ts : List Token) : ParseStep Expr :=
  (seedAux g fin t ts).val

/-- Extends the expression `left` by the operators that bind tighter than the threshold. -/
def extend (g : Grouping) (fin : Location) (threshold : Int) (left : Expr) (ts : List Token) :
    ParseStep Expr :=
  (extendAux g fin threshold left ts).val

section Equations

variable (g : Grouping) (fin : Location)

theorem parseExpr_rest (threshold : Int) (ts : List Token) :
    (parseExpr g fin threshold ts).rest <:+ ts.tail :=
  (parseExprAux g fin threshold ts).property

theorem seed_rest (t : Token) (ts : List Token) : (seed g fin t ts).rest <:+ ts :=
  (seedAux g fin t ts).property

theorem parseExpr_nil (threshold : Int) :
    parseExpr g fin threshold [] = ⟨.error ⟨fin, .endOfInput⟩, []⟩ := by
  rw [parseExpr, parseExprAux]

theorem parseExpr_cons (threshold : Int) (t : Token) (ts : List Token) :
    parseExpr g fin threshold (t :: ts) =
      match seed g fin t ts with
      | ⟨.error e, rest⟩ => ⟨.error e, rest⟩
      | ⟨.ok left, rest⟩ => extend g fin threshold left rest := by
  rw [parseExpr, parseExprAux, seed]
  rcases seedAux g fin t ts with ⟨⟨_ | left, rest⟩, hs⟩ <;> rfl

theorem seed_eq (t : Token) (ts : List Token) :
    seed g fin t ts =
      match t.kind with
      | .leftParen => closeParen t.loc (parseExpr g fin Kind.leastPower ts)
      | .print => (parseExpr g fin Kind.leastPower ts).map (.print t.loc)
      | .integer =>
        match Literal.word? t.spelling with
        | some n => ⟨.ok (.int t.loc n), ts⟩
        | none => ⟨.error ⟨t.loc, .integerLiteral t.spelling⟩, ts⟩
      | .bool b => ⟨.ok (.bool t.loc b), ts⟩
      | .identifier => ⟨.ok (.var t.loc .unknown t.spelling), ts⟩
      | .eof => ⟨.error ⟨t.loc, .endOfInput⟩, ts⟩
      | kind =>
        match kind.unaryOp? with
        | some op => (parseExpr g fin op.threshold ts).map (.unary t.loc .unknown op)
        | none => ⟨.error ⟨t.loc, .unexpectedToken kind t.spelling⟩, ts⟩ := by
  rw [seed, seedAux]
  split
  · rfl
  · rfl
  · split <;> rfl
  · rfl
  · rfl
  · rfl
  · split <;> rfl

theorem extend_nil (threshold : Int) (left : Expr) :
    extend g fin threshold left [] =
      if threshold < Kind.leastPower then ⟨.error ⟨fin, .endOfInput⟩, []⟩ else ⟨.ok left, []⟩ := by
  rw [extend, extendAux]

theorem extend_cons (threshold : Int) (left : Expr) (t : Token) (ts : List Token) :
    extend g fin threshold left (t :: ts) =
      if threshold < t.kind.power then
        match parseExpr g fin (g.threshold t.kind) ts with
        | ⟨.error e, rest⟩ => ⟨.error e, rest⟩
        | ⟨.ok right, rest⟩ =>
          match join left t right with
          | .error e => ⟨.error e, rest⟩
          | .ok e => extend g fin threshold e rest
      else ⟨.ok left, t :: ts⟩ := by
  rw [extend, extendAux]
  split
  · rw [parseExpr]
    rcases parseExprAux g fin (g.threshold t.kind) ts with ⟨⟨_ | right, rest⟩, hs⟩
    · rfl
    · dsimp only
      split <;> rfl
  · rfl

end Equations

/-! ## Programs -/

/-- Parses expressions up to the end of the input. -/
def parseProgram (g : Grouping) (fin : Location) (ts : List Token) : ParseStep Program :=
  match ts with
  | [] => ⟨.ok [], []⟩
  | t :: ts =>
    if t.kind = .eof then ⟨.ok [], t :: ts⟩
    else
      have h := (parseExpr_rest g fin Kind.leastPower (t :: ts)).length_le
      match parseExpr g fin Kind.leastPower (t :: ts), h with
      | ⟨.error e, rest⟩, _ => ⟨.error e, rest⟩
      | ⟨.ok e, rest⟩, h =>
        have : rest.length < (t :: ts).length := Nat.lt_succ_of_le h
        (parseProgram g fin rest).map (e :: ·)
termination_by ts.length
decreasing_by exact this

/-- Parses an expression at each of the thresholds in turn, each where the one before it stopped,
also if that one failed. -/
def parseEach (g : Grouping) (fin : Location) :
    List Int → List Token → List (Except (Located ParseError) Expr) × List Token
  | [], ts => ([], ts)
  | threshold :: thresholds, ts =>
    let s := parseExpr g fin threshold ts
    let (results, rest) := parseEach g fin thresholds s.rest
    (s.result :: results, rest)

/-- Parses a whole list of tokens. -/
def parse (ts : List Token) : Except (Located ParseError) Program :=
  (parseProgram .standard (endLocation ts) ts).result

end Reckon
