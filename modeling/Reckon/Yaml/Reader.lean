import Reckon.Yaml.Problem

/-!
# Reading a text

A text is read in blocks of 512 bytes, each of them only when its characters are asked for. A block
with a character that may not stand in a text cannot be read past that character, so a mistake that
comes earlier is reported instead if it is found before the block is needed.

* `Reader`: the text still to be read, where it begins, and how much of it is at hand.
* `Reading.need`: asks for characters, `Reading.tryNeed` does so without failing at once.
* `Reader.skip`, `Reader.skipLine`: moving on.
-/

namespace Reckon.Yaml

/-! ## Characters -/

/-- A space or a tab. -/
def isSpace (c : Char) : Bool := c == ' ' || c == '\t'

/-- A character that ends a line. -/
def isBreak (c : Char) : Bool :=
  c == '\n' || c == '\r' || c.toNat == 0x85 || c.toNat == 0x2028 || c.toNat == 0x2029

/-- The null character, which no text contains, stands behind the end of every text. -/
def endChar : Char := Char.ofNat 0

/-- The line ends here. -/
def endsLine (c : Char) : Bool := isBreak c || c == endChar

/-- A word ends here. -/
def endsWord (c : Char) : Bool := isSpace c || endsLine c

/-- A line break as it is kept: only the two Unicode separators differ from a line feed. -/
def keptBreak (c : Char) : Char :=
  if c.toNat == 0x2028 || c.toNat == 0x2029 then c else '\n'

/-- The byte order mark. -/
def isByteOrderMark (c : Char) : Bool := c.toNat == 0xfeff

/-- A character that may stand in a text at all. -/
def isAllowed (c : Char) : Bool :=
  let n := c.toNat
  n == 0x09 || n == 0x0a || n == 0x0d || (0x20 ≤ n && n ≤ 0x7e) || n == 0x85
    || (0xa0 ≤ n && n ≤ 0xfffd) || 0x10000 ≤ n

/-! ## Readers -/

/-- The number of bytes in a block. -/
def blockSize : Nat := 512

/-- The text still to be read and where it begins. -/
structure Reader where
  rest : List Char
  mark : Mark := ⟨0, 0, 0⟩
  /-- How many characters are at hand, those behind the end included. -/
  ahead : Nat := 0
  /-- The bytes that the next block has room for. -/
  room : Nat := blockSize
  /-- The characters at hand were fetched beginning with a byte order mark. -/
  marked : Bool := false
  /-- The line breaks since the last character that is not white space. -/
  newLines : Nat := 0
  /-- Looking ahead has met a character that may not stand in a text. -/
  faulty : Bool := false

/-- How many characters fit into a number of bytes. -/
def fitting (room : Nat) : List Char → Nat
  | [] => 0
  | c :: cs => if c.utf8Size ≤ room then fitting (room - c.utf8Size) cs + 1 else 0

namespace Reader

/-- The beginning of a text. A byte order mark in front of it is dropped. -/
def ofText (text : List Char) : Reader :=
  match text with
  | [] => { rest := [] }
  | c :: cs =>
    if isByteOrderMark c then { rest := cs, room := blockSize - c.utf8Size }
    else { rest := text }

/-- The character that stands a number of characters further on. -/
def charAt (r : Reader) (n : Nat) : Char := r.rest.getD n endChar

/-- Fetches blocks until `n` characters are at hand, or up to a forbidden one. Behind the end of the
text every call adds one more character. -/
def fetchBlocks (n : Nat) : Nat → Reader → Reader × Bool
  | 0, r => (r, true)
  | fuel + 1, r =>
    if n ≤ r.ahead then (r, true)
    else
      match r.rest.drop r.ahead with
      | [] => ({ r with ahead := r.ahead + 1 }, true)
      | later =>
        let block := later.take (fitting r.room later)
        let allowed := (block.takeWhile isAllowed).length
        let r' := { r with ahead := r.ahead + allowed, room := blockSize }
        if allowed < block.length then (r', false) else fetchBlocks n fuel r'

/-- Has at least `n` characters at hand, if possible, and says whether it was. -/
def fill (r : Reader) (n : Nat) : Reader × Bool :=
  if n ≤ r.ahead then (r, true)
  else fetchBlocks n (n + 1) { r with marked := isByteOrderMark (r.charAt 0) }

/-- Moves behind one character that ends no line. -/
def skip (r : Reader) : Reader :=
  { r with
    rest := r.rest.drop 1
    mark := { r.mark with index := r.mark.index + 1, column := r.mark.column + 1 }
    ahead := r.ahead - 1
    newLines := if isSpace (r.charAt 0) then r.newLines else 0 }

/-- Moves behind `n` characters that end no line. -/
def skipMany (r : Reader) (n : Nat) : Reader := n.repeat skip r

/-- Moves behind a line break, if there is one. A carriage return and a line feed are one. -/
def skipLine (r : Reader) : Reader :=
  let length :=
    if r.charAt 0 == '\r' && r.charAt 1 == '\n' then 2
    else if isBreak (r.charAt 0) then 1
    else 0
  if length = 0 then r
  else
    { r with
      rest := r.rest.drop length
      mark := ⟨r.mark.index + length, r.mark.line + 1, 0⟩
      ahead := r.ahead - length
      newLines := r.newLines + 1 }

/-- A line begins here with a character three times, and nothing but white space right behind. -/
def atIndicator (r : Reader) (c : Char) : Bool :=
  r.mark.column == 0 && r.charAt 0 == c && r.charAt 1 == c && r.charAt 2 == c
    && endsWord (r.charAt 3)

/-- The first line or the last line of a document begins here. -/
def atDocumentIndicator (r : Reader) : Bool := r.atIndicator '-' || r.atIndicator '.'

end Reader

/-- Computations that read a text. -/
abbrev Reading := StateT Reader (Except SyntaxError)

namespace Reading

/-- Asks for `n` characters and says whether they can be had. If not, the reader is faulty. -/
def tryNeed (n : Nat) : Reading Bool := do
  let (r, ok) := (← get).fill n
  set (if ok then r else { r with faulty := true })
  return ok

/-- Asks for `n` characters. -/
def need (n : Nat) : Reading Unit := do
  let (r, ok) := (← get).fill n
  if ok then set r else throw .forbidden

/-- The character that stands a number of characters further on. -/
def look (n : Nat) : Reading Char := return (← get).charAt n

end Reading

end Reckon.Yaml
