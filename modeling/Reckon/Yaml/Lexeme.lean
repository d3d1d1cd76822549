import Reckon.Yaml.Comment
import Reckon.Yaml.Scalar

/-!
# Lexemes

A text is cut into scalars, indicators, and the beginnings and ends of indented blocks. A block
begins where the first key or dash of a deeper indentation stands and ends where the indentation
falls below it. Whether a scalar or a bracket is a key is known only when the colon behind it is
met, on the same line; the lexeme that announces the key is then put in front of it.

Lexemes are cut off when they are asked for, at least three at a time, and as many more as it takes
to know whether the first one is a key. A key that was used up before its colon is met is announced
too late, behind everything that is waiting.

Directives, anchors, aliases, tags and block scalars are not read.

* `Lexer`: the state of cutting a text.
* `Lexing.peek`, `Lexing.take`: the next lexeme.
-/

namespace Reckon.Yaml

/-- The kinds of lexeme. -/
inductive LexemeKind
  | streamStart
  | streamEnd
  | documentStart
  | documentEnd
  | sequenceStart
  | mappingStart
  | blockEnd
  | openBracket
  | closeBracket
  | openBrace
  | closeBrace
  | dash
  | comma
  | key
  | value
  | scalar (quoted : Bool) (text : String)
deriving DecidableEq, Repr

/-- A lexeme and where it stands. -/
structure Lexeme where
  kind : LexemeKind
  mark : Mark

/-- Something that is a key if a colon follows: where it stands, how many lexemes come before it,
whether it still can be a key, and whether it has to be one. -/
structure PendingKey where
  mark : Mark
  number : Nat
  possible : Bool
  required : Bool

/-- The state of cutting a text. `keys` has one place for the text outside all brackets and one for
each open bracket, and `awaited` gives the places of the lexemes that may turn out to be keys. -/
structure Lexer where
  reader : Reader
  started : Bool := false
  indent : Int := -1
  outerIndents : List Int := []
  keyAllowed : Bool := true
  keys : Array PendingKey := #[⟨⟨0, 0, 0⟩, 0, false, false⟩]
  awaited : List (Nat × Nat) := []
  /-- The lexemes that are waiting to be used. -/
  queue : List Lexeme := []
  /-- How many lexemes were used. -/
  taken : Nat := 0
  /-- It is decided whether the first lexeme of the queue is a key. -/
  ready : Bool := false
  /-- The comments whose owner is not used yet. -/
  comments : List Comment := []

namespace Lexer

/-- Inside brackets indentation does not count. -/
def inFlow (l : Lexer) : Bool := decide (1 < l.keys.size)

/-- The number of the next lexeme that is found. -/
def nextNumber (l : Lexer) : Nat := l.taken + l.queue.length

/-- Puts a lexeme behind all that are waiting. -/
def emit (l : Lexer) (kind : LexemeKind) (mark : Mark) : Lexer :=
  { l with queue := l.queue ++ [⟨kind, mark⟩] }

/-- Puts a lexeme in front of the one with a number, or behind all if that one was used. -/
def emitBefore (l : Lexer) (number : Nat) (kind : LexemeKind) (mark : Mark) : Lexer :=
  if number < l.taken then l.emit kind mark
  else
    let n := number - l.taken
    { l with queue := l.queue.take n ++ ⟨kind, mark⟩ :: l.queue.drop n }

/-- A lexeme is not awaited any more. -/
def forget (l : Lexer) (number : Nat) : Lexer :=
  { l with awaited := l.awaited.filter fun a => a.1 != number }

/-- The comments that belong to a lexeme or to what comes before it are done with. What stands in
front of something does not belong to the end of a block. -/
def passComments (l : Lexer) (lexeme : Lexeme) : Lexer :=
  { l with
    comments := l.comments.dropWhile fun c =>
      decide (c.owner ≤ lexeme.mark.index)
        && !(c.place == .before && lexeme.kind == .blockEnd) }

/-- Where a block ends: at the first of the comments behind it that stand at its own indentation, or
else at `mark`. The comments are given last first. -/
def blockEndMark (indent : Int) : List Comment → Nat → Mark → Mark
  | [], _, mark => mark
  | c :: cs, stop, mark =>
    if c.closes < stop then mark
    else
      blockEndMark indent cs c.opens (if (c.start.column : Int) = indent + 1 then c.start else mark)

/-- Ends the blocks that are indented deeper than a column. -/
def unroll (l : Lexer) (column : Int) (mark : Mark) : Lexer :=
  if l.inFlow then l
  else go (l.outerIndents.length + 1) { mark with index := mark.index - 1 } l
where
  /-- Ends at most `fuel` blocks. -/
  go : Nat → Mark → Lexer → Lexer
    | 0, _, l => l
    | fuel + 1, mark, l =>
      if column < l.indent then
        let mark := blockEndMark l.indent l.comments.reverse mark.index mark
        let l := l.emit .blockEnd mark
        match l.outerIndents with
        | [] => { l with indent := -1 }
        | i :: rest => go fuel mark { l with indent := i, outerIndents := rest }
      else l

/-- A plain scalar may begin with this character, given the next one. -/
def startsPlain (l : Lexer) (c next : Char) : Bool :=
  let special : List Char :=
    ['-', '?', ':', ',', '[', ']', '\x7b', '\x7d', '#', '&', '*', '!', '|', '>', '\'', '"', '%',
      '@', Char.ofNat 0x60]
  (!endsWord c && !special.contains c)
    || (c == '-' && !isSpace next)
    || (!l.inFlow && (c == '?' || c == ':') && !endsWord next)

end Lexer

/-- Computations that cut a text. -/
abbrev Lexing := StateT Lexer (Except SyntaxError)

namespace Lexing

/-- Reads from the text. -/
def reading {α : Type} (act : Reading α) : Lexing α := fun l =>
  match act l.reader with
  | .ok (a, r) => .ok (a, { l with reader := r })
  | .error e => .error e

/-- Fails at the place that was reached. -/
def fail {α : Type} (problem : Problem) (construct : Mark) : Lexing α := do
  throw (.scanning problem construct (← get).reader.mark)

/-! ## Keys -/

/-- The key in a place still can be one: it stands on the line that was reached, and not too far
back. -/
def keyHolds (level : Nat) : Lexing Bool := do
  let l ← get
  match l.keys[level]? with
  | none => return false
  | some k =>
    if !k.possible then return false
    else if k.mark.line < l.reader.mark.line ∨ k.mark.index + 1024 < l.reader.mark.index then
      if k.required then fail .missingColon k.mark
      else
        set { l with keys := l.keys.setIfInBounds level { k with possible := false } }
        return false
    else return true

/-- Gives up the key that is waiting for its colon. -/
def dropKey : Lexing Unit := do
  let l ← get
  let level := l.keys.size - 1
  match l.keys[level]? with
  | none => return
  | some k =>
    if k.possible then
      if k.required then fail .missingColon k.mark
      else
        let keys := l.keys.setIfInBounds level { k with possible := false }
        set ({ l with keys }.forget k.number)

/-- Remembers that a key may begin here. -/
def saveKey : Lexing Unit := do
  if (← get).keyAllowed then
    dropKey
    let l ← get
    let level := l.keys.size - 1
    let k : PendingKey :=
      { mark := l.reader.mark
        number := l.nextNumber
        possible := true
        required := !l.inFlow && l.indent == (l.reader.mark.column : Int) }
    set { l with
      keys := l.keys.setIfInBounds level k
      awaited := (k.number, level) :: (l.forget k.number).awaited }

/-- Begins a block at a column that is deeper than the indentation; `number` is the lexeme to put
its beginning in front of, if not behind all. -/
def roll (column : Nat) (number : Option Nat) (kind : LexemeKind) (mark : Mark) : Lexing Unit := do
  let l ← get
  if !l.inFlow && decide (l.indent < column) then
    let l := { l with indent := column, outerIndents := l.indent :: l.outerIndents }
    if maxDepth < l.outerIndents.length then
      fail .tooDeep ((l.keys.back?.map (·.mark)).getD l.reader.mark)
    else
      match number with
      | some n => set (l.emitBefore n kind mark)
      | none => set (l.emit kind mark)

/-! ## White space -/

/-- A comment beside the dash that begins a sequence stands in front of what follows. -/
def moveComment : Lexing Unit := do
  let l ← get
  match l.queue.reverse, l.comments.reverse with
  | b :: a :: _, c :: earlier =>
    let here := l.reader.mark
    if a.kind == .sequenceStart && b.kind == .dash && c.place == .beside
        && !isBreak (l.reader.charAt 0) then
      let owner := if c.start.line + 1 = here.line then here.index else c.owner
      let c := { c with place := .before, owner }
      set { l with comments := (c :: earlier).reverse }
  | _, _ => return

/-- Reads the comments from here on. -/
def skipComments (scanned : Mark) : Lexing Unit := do
  let l ← get
  let last : Option Lexeme :=
    match l.queue.reverse with
    | b :: a :: _ => if b.kind == .comma then some a else some b
    | [b] => some b
    | [] => none
  let owner := (last.map (·.mark.index)).getD 0
  let afterColon := last.map (·.kind) == some .value
  let found ← reading (readComments l.inFlow afterColon l.indent scanned owner)
  modify fun l => { l with comments := l.comments ++ found }

/-- Skips spaces, and tabs where they do not indent. -/
def skipSpaces : Nat → Lexing Unit
  | 0 => return
  | fuel + 1 => do
    let l ← get
    let c := l.reader.charAt 0
    if c == ' ' || (c == '\t' && (l.inFlow || !l.keyAllowed)) then
      set { l with reader := l.reader.skip }
      reading (Reading.need 1)
      skipSpaces fuel

/-- Skips white space and comments. Where the characters at hand begin with a byte order mark, the
first character of a line is taken for it. -/
def skipGap (scanned : Mark) : Nat → Lexing Unit
  | 0 => return
  | fuel + 1 => do
    reading (Reading.need 1)
    let r := (← get).reader
    if r.mark.column == 0 && r.marked then modify fun l => { l with reader := l.reader.skip }
    reading (Reading.need 1)
    skipSpaces (r.rest.length + 1)
    moveComment
    if (← get).reader.charAt 0 == '#' then skipComments scanned
    if isBreak ((← get).reader.charAt 0) then
      reading (Reading.need 2)
      modify fun l =>
        { l with reader := l.reader.skipLine, keyAllowed := l.keyAllowed || !l.inFlow }
      skipGap scanned fuel

/-! ## Finding lexemes -/

/-- Adds an indicator of a given length. -/
def indicator (kind : LexemeKind) (length : Nat) : Lexing Unit :=
  modify fun l => { l with reader := l.reader.skipMany length }.emit kind l.reader.mark

/-- Says whether a key may come next. -/
def allowKey (allowed : Bool) : Lexing Unit := modify fun l => { l with keyAllowed := allowed }

/-- Reads the first or the last line of a document. -/
def documentIndicator (kind : LexemeKind) : Lexing Unit := do
  modify fun l => l.unroll (-1) l.reader.mark
  dropKey
  allowKey false
  indicator kind 3

/-- Reads an opening bracket. -/
def openFlow (kind : LexemeKind) : Lexing Unit := do
  saveKey
  let l ← get
  let k : PendingKey := ⟨l.reader.mark, l.nextNumber, false, false⟩
  if maxDepth < l.keys.size then fail .tooDeep l.reader.mark
  set { l with keys := l.keys.push k, keyAllowed := true }
  indicator kind 1

/-- Reads a closing bracket. What was last in its place is not awaited any more; if nothing was,
that is the bracket itself. -/
def closeFlow (kind : LexemeKind) : Lexing Unit := do
  dropKey
  let l ← get
  if l.inFlow then
    let number := (l.keys.back?.map (·.number)).getD 0
    set ({ l with keys := l.keys.pop }.forget number)
  allowKey false
  indicator kind 1

/-- Reads a comma between the items of a bracket. -/
def comma : Lexing Unit := do
  dropKey
  allowKey true
  indicator .comma 1

/-- Reads the dash of a list item. -/
def dash : Lexing Unit := do
  let l ← get
  let mark := l.reader.mark
  if !l.inFlow then
    if !l.keyAllowed then fail .sequenceEntry mark
    roll mark.column none .sequenceStart mark
  dropKey
  allowKey true
  indicator .dash 1

/-- Reads the question mark in front of a key. -/
def explicitKey : Lexing Unit := do
  let l ← get
  let mark := l.reader.mark
  if !l.inFlow then
    if !l.keyAllowed then fail .mappingKey mark
    roll mark.column none .mappingStart mark
  dropKey
  allowKey !l.inFlow
  indicator .key 1

/-- Reads a colon. If something before it can be its key, that is announced as one. -/
def colon : Lexing Unit := do
  let l ← get
  let level := l.keys.size - 1
  let mark := l.reader.mark
  let holds ← keyHolds level
  match holds, l.keys[level]? with
  | true, some k =>
    modify fun l => l.emitBefore k.number .key k.mark
    roll k.mark.column (some k.number) .mappingStart k.mark
    modify fun l =>
      { l with keys := l.keys.setIfInBounds level { k with possible := false } }.forget k.number
    allowKey false
  | _, _ =>
    if !l.inFlow then
      if !l.keyAllowed then fail .mappingValue mark
      roll mark.column none .mappingStart mark
    allowKey !l.inFlow
  indicator .value 1

/-- Reads a quoted scalar. -/
def quotedScalar (single : Bool) : Lexing Unit := do
  saveKey
  allowKey false
  let mark := (← get).reader.mark
  let text ← reading (readQuoted single)
  modify fun l => l.emit (.scalar true text) mark

/-- Reads a plain scalar. -/
def plainScalar : Lexing Unit := do
  saveKey
  let l ← get
  let (text, newLine) ← reading (readPlain l.inFlow (l.indent + 1))
  allowKey newLine
  modify fun l' => l'.emit (.scalar false text) l.reader.mark

/-- Ends the text. -/
def finish : Lexing Unit := do
  modify fun l =>
    let mark := l.reader.mark
    let mark := if mark.column = 0 then mark else { mark with line := mark.line + 1, column := 0 }
    { l with reader := { l.reader with mark } }.unroll (-1) mark
  dropKey
  allowKey false
  modify fun l => l.emit .streamEnd l.reader.mark

/-- Finds the lexeme that begins here. -/
def find : Lexing Unit := do
  let l ← get
  let c := l.reader.charAt 0
  let next := l.reader.charAt 1
  let wordEnds := l.inFlow || endsWord next
  if c == '[' then openFlow .openBracket
  else if c == '\x7b' then openFlow .openBrace
  else if c == ']' then closeFlow .closeBracket
  else if c == '\x7d' then closeFlow .closeBrace
  else if c == ',' then comma
  else if c == '-' && endsWord next then dash
  else if c == '?' && wordEnds then explicitKey
  else if c == ':' && wordEnds then colon
  else if c == '\'' then quotedScalar true
  else if c == '"' then quotedScalar false
  else if l.startsPlain c next then plainScalar
  else fail .cannotStartToken l.reader.mark

/-- Reads the comment on the line of the lexeme just found. A dash has none. -/
def besideComment (owner : Nat) : Lexing Unit := do
  if ((← get).queue.getLast?.map (·.kind)) != some .dash then
    match ← reading (readBesideComment owner) with
    | some c => modify fun l => { l with comments := l.comments ++ [c] }
    | none => return

/-- Finds one more lexeme, or a key or a block with it. -/
def fetch : Lexing Unit := do
  reading (Reading.need 1)
  let l ← get
  let scanned := l.reader.mark
  if !l.started then
    set ({ l with started := true }.emit .streamStart scanned)
  else
    skipGap scanned (l.reader.rest.length + 1)
    modify fun l => l.unroll l.reader.mark.column scanned
    reading (Reading.need 4)
    let l ← get
    let r := l.reader
    if r.charAt 0 == endChar then finish
    else if r.atIndicator '-' then documentIndicator .documentStart
    else if r.atIndicator '.' then documentIndicator .documentEnd
    else
      let c := r.charAt 0
      let ofLast := if l.inFlow then c == ',' else c == ':'
      let owner := if ofLast then (l.queue.getLast?.map (·.mark)).getD r.mark else r.mark
      find
      besideComment owner.index

/-! ## Using lexemes -/

/-- Finds lexemes until three are waiting and it is known whether the first one is a key. -/
def fetchMore : Nat → Lexing Unit
  | 0 => return
  | fuel + 1 => do
    let l ← get
    let enough ←
      if l.queue.length < 3 then pure false
      else
        match l.awaited.lookup l.taken with
        | none => pure true
        | some level => (!·) <$> keyHolds level
    if !enough then
      fetch
      fetchMore fuel

/-- The next lexeme. -/
def peek : Lexing Lexeme := do
  let l ← get
  if !l.ready then
    fetchMore (l.reader.rest.length + 8)
    modify fun l => { l with ready := true }
  let l ← get
  match l.queue with
  | lexeme :: _ =>
    set (l.passComments lexeme)
    return lexeme
  | [] => return ⟨.streamEnd, l.reader.mark⟩

/-- Uses the next lexeme. -/
def take : Lexing Unit :=
  modify fun l => { l with queue := l.queue.drop 1, taken := l.taken + 1, ready := false }

/-- Fails if looking ahead has met a forbidden character. -/
def settled : Lexing Unit := do
  if (← get).reader.faulty then throw .forbidden

end Lexing

end Reckon.Yaml
