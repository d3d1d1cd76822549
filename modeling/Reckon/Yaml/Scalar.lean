import Reckon.Yaml.Reader

/-!
# Reading scalars

A scalar is written plainly or between single or double quotes and may go on over several lines.
Line breaks inside it are folded: a single one is read as a space, and of several the first is
dropped.

* `Folded`: the characters of a scalar with the white space that is not decided yet.
* `readPlain`, `readQuoted`: reading a scalar.
-/

namespace Reckon.Yaml

open Reading

/-! ## Folding -/

/-- The characters of a scalar so far, last first, and the white space behind them that is not
decided yet: the spaces on the same line, or the line breaks since then. -/
structure Folded where
  text : List Char := []
  spaces : List Char := []
  breaks : Option (Option Char × List Char) := none

namespace Folded

/-- Decides the white space: spaces stay, a single line break is a space, and of several line feeds
the first is dropped. -/
def settle (f : Folded) : Folded :=
  match f.breaks with
  | none => { text := f.spaces ++ f.text }
  | some (some '\n', []) => { text := ' ' :: f.text }
  | some (some '\n', later) => { text := later ++ f.text }
  | some (some c, later) => { text := later ++ c :: f.text }
  | some (none, later) => { text := later ++ f.text }

/-- Adds a character. -/
def push (f : Folded) (c : Char) : Folded := { text := c :: f.settle.text }

/-- Adds a space or a tab; at the beginning of a line it does not count. -/
def pushSpace (f : Folded) (c : Char) : Folded :=
  match f.breaks with
  | none => { f with spaces := c :: f.spaces }
  | some _ => f

/-- Adds a line break. -/
def pushBreak (f : Folded) (c : Char) : Folded :=
  match f.breaks with
  | none => { f with spaces := [], breaks := some (some c, []) }
  | some (first, later) => { f with breaks := some (first, c :: later) }

/-- Adds a line break that is not read as anything. -/
def pushEscapedBreak (f : Folded) : Folded := { f.settle with breaks := some (none, []) }

/-- The text with the white space behind it. -/
def textWithSpace (f : Folded) : String := String.ofList f.settle.text.reverse

/-- The text without the white space behind it. -/
def textOnly (f : Folded) : String := String.ofList f.text.reverse

end Folded

/-- Reads white space in a scalar. On the further lines of a plain scalar a tab may not stand in
front of the column `indent`. -/
def readGap (start : Mark) (indent : Int) : Nat → Folded → Reading Folded
  | 0, f => return f
  | fuel + 1, f => do
    let r ← get
    let c := r.charAt 0
    if isSpace c then
      if f.breaks.isSome && c == '\t' && decide ((r.mark.column : Int) < indent) then
        throw (.scanning .tabIndentation start r.mark)
      set r.skip
      need 1
      readGap start indent fuel (f.pushSpace c)
    else if isBreak c then
      need 2
      modify Reader.skipLine
      need 1
      readGap start indent fuel (f.pushBreak (keptBreak c))
    else return f

/-! ## Plain scalars -/

/-- A character that ends a plain scalar, given the next one: a colon with white space behind it,
and in brackets also the characters that brackets are made of. -/
def endsPlain (inFlow : Bool) (c next : Char) : Bool :=
  (c == ':' && endsWord next) || (inFlow && [',', '?', '[', ']', '\x7b', '\x7d'].contains c)

/-- Reads a word of a plain scalar. -/
def readPlainWord (inFlow : Bool) : Nat → Folded → Reading Folded
  | 0, f => return f
  | fuel + 1, f => do
    let r ← get
    let c := r.charAt 0
    if endsWord c || endsPlain inFlow c (r.charAt 1) then return f
    else
      set r.skip
      need 2
      readPlainWord inFlow fuel (f.push c)

/-- Reads the words of a plain scalar, which are indented by at least `indent` on further lines. -/
def readPlainWords (inFlow : Bool) (start : Mark) (indent : Int) : Nat → Folded → Reading Folded
  | 0, f => return f
  | fuel + 1, f => do
    need 4
    let r ← get
    if r.atDocumentIndicator || r.charAt 0 == '#' then return f
    else
      let f ← readPlainWord inFlow (r.rest.length + 1) f
      let c ← look 0
      if isSpace c || isBreak c then
        need 1
        let f ← readGap start indent (r.rest.length + 1) f
        if !inFlow && decide (((← get).mark.column : Int) < indent) then return f
        else readPlainWords inFlow start indent fuel f
      else return f

/-- Reads a plain scalar and says whether a line break was read behind it. -/
def readPlain (inFlow : Bool) (indent : Int) : Reading (String × Bool) := do
  let r ← get
  let f ← readPlainWords inFlow r.mark indent (r.rest.length + 1) {}
  return (f.textOnly, f.breaks.isSome)

/-! ## Quoted scalars -/

/-- What an escape stands for: a character, or the number of hexadecimal digits that give one. -/
inductive Escape
  | char (c : Char)
  | code (length : Nat)

/-- The escape with a letter. -/
def escape? (c : Char) : Option Escape :=
  match c with
  | '0' => some (.char (Char.ofNat 0))
  | 'a' => some (.char (Char.ofNat 0x07))
  | 'b' => some (.char (Char.ofNat 0x08))
  | 't' | '\t' => some (.char '\t')
  | 'n' => some (.char '\n')
  | 'v' => some (.char (Char.ofNat 0x0b))
  | 'f' => some (.char (Char.ofNat 0x0c))
  | 'r' => some (.char '\r')
  | 'e' => some (.char (Char.ofNat 0x1b))
  | ' ' => some (.char ' ')
  | '"' => some (.char '"')
  | '\'' => some (.char '\'')
  | '\\' => some (.char '\\')
  | 'N' => some (.char (Char.ofNat 0x85))
  | '_' => some (.char (Char.ofNat 0xa0))
  | 'L' => some (.char (Char.ofNat 0x2028))
  | 'P' => some (.char (Char.ofNat 0x2029))
  | 'x' => some (.code 2)
  | 'u' => some (.code 4)
  | 'U' => some (.code 8)
  | _ => none

/-- The value of a hexadecimal digit. -/
def hexValue? (c : Char) : Option Nat :=
  if c.isDigit then some (c.toNat - '0'.toNat)
  else if 'a' ≤ c ∧ c ≤ 'f' then some (c.toNat - 'a'.toNat + 10)
  else if 'A' ≤ c ∧ c ≤ 'F' then some (c.toNat - 'A'.toNat + 10)
  else none

/-- The value of the first `length` characters as hexadecimal digits. -/
def hexCode? : Nat → List Char → Nat → Option Nat
  | 0, _, value => some value
  | _ + 1, [], _ => none
  | length + 1, c :: cs, value => (hexValue? c).bind fun d => hexCode? length cs (value * 16 + d)

/-- Reads an escape, from its backslash on. -/
def readEscape (start : Mark) : Reading Char := do
  let r ← get
  match escape? (r.charAt 1) with
  | none => throw (.scanning .unknownEscape start r.mark)
  | some (.char c) =>
    set (r.skipMany 2)
    return c
  | some (.code length) =>
    set (r.skipMany 2)
    need length
    let r ← get
    match hexCode? length r.rest 0 with
    | none => throw (.scanning .hexadecimal start r.mark)
    | some n =>
      if n.isValidChar then
        set (r.skipMany length)
        return Char.ofNat n
      else throw (.scanning .invalidEscapeCode start r.mark)

/-- Reads a word of a quoted scalar, up to white space or the closing quote. -/
def readQuotedWord (single : Bool) (start : Mark) : Nat → Folded → Reading Folded
  | 0, f => return f
  | fuel + 1, f => do
    let r ← get
    let c := r.charAt 0
    let next := r.charAt 1
    if endsWord c then return f
    else if single && c == '\'' && next == '\'' then
      set (r.skipMany 2)
      need 2
      readQuotedWord single start fuel (f.push '\'')
    else if c == (if single then '\'' else '"') then return f
    else if !single && c == '\\' && isBreak next then
      need 3
      modify fun r => r.skip.skipLine
      return f.pushEscapedBreak
    else if !single && c == '\\' then
      let e ← readEscape start
      need 2
      readQuotedWord single start fuel (f.push e)
    else
      set r.skip
      need 2
      readQuotedWord single start fuel (f.push c)

/-- Reads the words of a quoted scalar up to its closing quote. -/
def readQuotedWords (single : Bool) (start : Mark) : Nat → Folded → Reading Folded
  | 0, f => return f
  | fuel + 1, f => do
    need 4
    let r ← get
    if r.atDocumentIndicator then throw (.scanning .documentIndicator start r.mark)
    if r.charAt 0 == endChar then throw (.scanning .endOfStream start r.mark)
    let f ← readQuotedWord single start (r.rest.length + 1) f
    need 1
    if (← look 0) == (if single then '\'' else '"') then return f
    let f ← readGap start 0 (r.rest.length + 1) f
    readQuotedWords single start fuel f

/-- Reads a quoted scalar, from its opening quote on. -/
def readQuoted (single : Bool) : Reading String := do
  let r ← get
  set r.skip
  let f ← readQuotedWords single r.mark (r.rest.length + 2) {}
  modify Reader.skip
  return f.textWithSpace

end Reckon.Yaml
