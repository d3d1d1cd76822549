import Reckon.Yaml.Reader

/-!
# Comments

A comment runs from a number sign to the end of its line. Comments mean nothing, but where they
stand decides where an indented block is said to end, so their places are kept until the lexemes
behind them are used.

* `readBesideComment`: the comment on the line of the lexeme just read.
* `readComments`: the comments between two lexemes.
-/

namespace Reckon.Yaml

open Reading

/-- Where a comment stands: in front of what it belongs to, on the same line, or behind it. -/
inductive CommentPlace
  | before | beside | behind
deriving DecidableEq, Repr

/-- A comment. Between lexemes, the column of `start` counts from one. -/
structure Comment where
  place : CommentPlace
  start : Mark
  /-- The index of what it belongs to. -/
  owner : Nat
  /-- The index where the white space in front of it begins. -/
  opens : Nat := 0
  /-- The index where it is over. -/
  closes : Nat := 0
deriving DecidableEq, Repr

/-- How far ahead comments are looked for. -/
def commentSight : Nat := 512

/-- Moves to the end of the line of the comment at an index, over the white space in front of it. -/
def skipComment (index : Nat) : Nat → Reading Unit
  | 0 => return
  | fuel + 1 => do
    need 1
    let r ← get
    if endsLine (r.charAt 0) then
      if index ≤ r.mark.index then return
      else
        need 2
        modify Reader.skipLine
        skipComment index fuel
    else
      set r.skip
      skipComment index fuel

/-- The number of spaces up to the next character, if that is in sight. -/
def spacesAhead : Nat → Nat → Reading (Option Nat)
  | 0, _ => return none
  | fuel + 1, n => do
    if !(← tryNeed (n + 1)) then return none
    if isSpace (← look n) then spacesAhead fuel (n + 1) else return some n

/-- Reads the comment on the line of the lexeme just read, if there is one. -/
def readBesideComment (owner : Nat) : Reading (Option Comment) := do
  if 0 < (← get).newLines then return none
  match ← spacesAhead commentSight 0 with
  | none => return none
  | some n =>
    let r ← get
    if r.charAt n != '#' then return none
    skipComment (r.mark.index + n) (r.rest.length + 1)
    let start : Mark := ⟨r.mark.index + n, r.mark.line, r.mark.column + n⟩
    return some { place := .beside, start, owner }

/-! ## Comments between lexemes -/

/-- What the places of comments depend on. -/
structure CommentContext where
  inFlow : Bool
  /-- The indentation. -/
  indent : Int
  /-- The line where a comment still belongs to what comes before it. -/
  closeLine : Option Nat
  /-- The lexeme before is a colon. -/
  afterColon : Bool

/-- The state of looking for comments. -/
structure CommentSearch where
  /-- How far ahead the next character stands. -/
  sight : Nat := 0
  line : Nat
  column : Nat
  opens : Nat
  owner : Nat
  /-- Where the comment begins that is not placed yet. -/
  start : Option Mark := none
  afterEmptyLine : Bool := false
  noEmptyLine : Bool
  found : List Comment := []

namespace CommentSearch

/-- Places the comment behind what comes before it. -/
def placeBehind (s : CommentSearch) (owner index : Nat) : CommentSearch :=
  match s.start with
  | none => s
  | some start =>
    let comment : Comment := { place := .behind, start, owner, opens := s.opens, closes := index }
    { s with start := none, opens := index, owner := index, found := s.found ++ [comment] }

/-- A line ends, or a bracket closes, `index` being where: a comment that stands right below what
comes before it, or further to the left than it, belongs to that. -/
def endLine (s : CommentSearch) (ctx : CommentContext) (closing : Bool) (index : Nat) :
    CommentSearch :=
  match s.start with
  | none => s
  | some start =>
    let dedented := decide ((start.column : Int) - 1 < ctx.indent)
    let below := ctx.closeLine == some start.line && !ctx.afterColon
    if closing || (!s.afterEmptyLine && s.noEmptyLine && (below || dedented)) then
      s.placeBehind (if dedented then start.index else s.owner) index
    else s

/-- Another line begins with something at a different column. -/
def startLine (s : CommentSearch) (ctx : CommentContext) (index : Nat) : CommentSearch :=
  match s.start with
  | none => s
  | some start =>
    if (s.column : Int) - 1 < ctx.indent ∧ s.column ≠ start.column then s.placeBehind s.owner index
    else s

end CommentSearch

/-- The character that stands some bytes further on, where only white space comes before it. Behind
a line break of several bytes none is seen. -/
def Reader.glimpse (r : Reader) (n : Nat) : Char :=
  let seen := (r.rest.take (n + 1)).flatMap fun c =>
    if isBreak c && 1 < c.utf8Size then [c, '.'] else [c]
  seen.getD n endChar

/-- Looks for comments up to the next character that is neither white space nor in a comment. -/
def searchComments (ctx : CommentContext) : Nat → CommentSearch → Reading CommentSearch
  | 0, s => return s
  | fuel + 1, s => do
    if commentSight ≤ s.sight then return s
    if !(← tryNeed (s.sight + 1)) then return s
    let r ← get
    let c := r.glimpse s.sight
    let index := r.mark.index + s.sight
    let s := { s with column := s.column + 1 }
    let closing := ctx.inFlow && (c == ']' || c == '\x7d')
    if isSpace c then searchComments ctx fuel { s with sight := s.sight + 1 }
    else if closing || endsLine c then
      let s := s.endLine ctx closing index
      if isBreak c then
        searchComments ctx fuel
          { s with
            sight := s.sight + 1
            line := s.line + 1
            column := 0
            afterEmptyLine := true
            noEmptyLine := false }
      else return s
    else
      let s := s.startLine ctx index
      if c == '#' then
        let start := s.start.getD ⟨index, s.line, s.column⟩
        skipComment index (r.rest.length + 1)
        searchComments ctx fuel
          { s with
            sight := 1
            line := (← get).mark.line
            column := 0
            start := some start
            afterEmptyLine := false }
      else return s

/-- Reads comments, from a number sign on. `scanned` is where the white space in front begins, and
`owner` the lexeme before. -/
def readComments (inFlow afterColon : Bool) (indent : Int) (scanned : Mark) (owner : Nat) :
    Reading (List Comment) := do
  let r ← get
  let closeLine :=
    if scanned.column = 0 then none
    else
      let below := if r.newLines = 0 ∧ 1 < r.mark.column then 2 else 1
      some (r.mark.line + below - r.newLines)
  let ctx : CommentContext := ⟨inFlow, max indent 0, closeLine, afterColon⟩
  let s ← searchComments ctx ((r.rest.length + 2) * (commentSight + 1))
    { line := r.mark.line
      column := r.mark.column
      opens := scanned.index
      owner
      noEmptyLine := decide (r.newLines ≤ 1) }
  match s.start with
  | none => return s.found
  | some start =>
    let closes := (← get).mark.index + s.sight - 1
    let comment : Comment :=
      { place := .before, start, owner := start.index, opens := s.opens, closes }
    return s.found ++ [comment]

end Reckon.Yaml
