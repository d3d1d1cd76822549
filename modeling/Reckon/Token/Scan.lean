import Reckon.Token
import Reckon.Text.Utf8

/-!
# Scanning

A source is a text that either ends cleanly or breaks off because it can no longer be read. Scanning
cuts it into gaps (blanks and comments) and tokens. A number or a word takes every character that
can belong to it, and a symbol is the longest one that the text starts with.

* `Cursor.next`: the next token, and where reading goes on after it or after a failure.
* `Source.scan`: all tokens up to and including the end token.
* `Cursor.next_rest_lt`: every token but the last consumes something, so scanning ends.
-/

namespace Reckon

/-- How the text of a source ends. -/
inductive Ending
  | clean
  | broken (message : String)
deriving DecidableEq, Repr

/-- A named text and how it ends. -/
structure Source where
  name : String
  chars : List Char
  ending : Ending := .clean
deriving DecidableEq, Repr

/-- Why scanning stops. -/
inductive ScanError
  | unreadable (message : String)
  | invalidCharacter (c : Char)
deriving DecidableEq, Repr

/-- The wording of a scanning error. -/
def ScanError.message : ScanError → String
  | unreadable m => m
  | invalidCharacter c => "invalid character: " ++ Text.quoteChar c

namespace Source

/-- A source that ends cleanly. -/
def ofString (name text : String) : Source := ⟨name, text.toList, .clean⟩

/-- A source given by its bytes. -/
def ofBytes (name : String) (bytes : List UInt8) : Source := ⟨name, Text.Utf8.decode bytes, .clean⟩

end Source

/-! ## Gaps, words and symbols -/

/-- Splits off the longest gap: blanks, and comments from a hash sign to the end of their line.
`comment` says whether the text starts inside a comment. -/
def spanGap (comment : Bool) : List Char → List Char × List Char
  | [] => ([], [])
  | c :: cs =>
    if comment then
      let (gap, rest) := spanGap (decide (c ≠ '\n')) cs
      (c :: gap, rest)
    else if c = '#' then
      let (gap, rest) := spanGap true cs
      (c :: gap, rest)
    else if Text.isBlank c then
      let (gap, rest) := spanGap false cs
      (c :: gap, rest)
    else ([], c :: cs)

theorem spanGap_append (comment : Bool) (cs : List Char) :
    (spanGap comment cs).1 ++ (spanGap comment cs).2 = cs := by
  induction cs generalizing comment with
  | nil => rfl
  | cons c cs ih =>
    simp only [spanGap]
    split
    · simp [ih]
    · split
      · simp [ih]
      · split <;> simp [ih]

theorem spanGap_rest_length_le (comment : Bool) (cs : List Char) :
    (spanGap comment cs).2.length ≤ cs.length := by
  have h := congrArg List.length (spanGap_append comment cs)
  simp at h
  omega

/-- A character that can start a name. -/
def isNameStart (c : Char) : Bool := c == '_' || Text.isLetter c

/-- A character that can continue a name. -/
def isNamePart (c : Char) : Bool := isNameStart c || c.isDigit

namespace Token.Kind

/-- The characters of a kind that is always written the same way; empty for the other kinds. -/
def symbol : Kind → List Char
  | leftParen => ['(']
  | rightParen => [')']
  | binary op => op.symbol
  | bitNot => ['~']
  | logicNot => ['!']
  | _ => []

/-- The kinds with a symbol, those with a longer one first. -/
def symbolic : List Kind :=
  [
    .binary (.arithAssign .shiftLeft), .binary (.arithAssign .shiftRight),
    .binary (.logicAssign .and), .binary (.logicAssign .or),
    .binary (.arith .shiftLeft), .binary (.arith .shiftRight), .binary (.order .le),
    .binary (.order .ge), .binary .equal, .binary .notEqual, .binary (.logic .and),
    .binary (.logic .or), .binary (.arithAssign .add), .binary (.arithAssign .sub),
    .binary (.arithAssign .mul), .binary (.arithAssign .div), .binary (.arithAssign .mod),
    .binary (.arithAssign .bitAnd), .binary (.arithAssign .bitOr), .binary (.arithAssign .bitXor),
    .leftParen, .rightParen, .bitNot, .logicNot, .binary (.arith .add), .binary (.arith .sub),
    .binary (.arith .mul), .binary (.arith .div), .binary (.arith .mod), .binary (.arith .bitAnd),
    .binary (.arith .bitOr), .binary (.arith .bitXor), .binary (.order .lt), .binary (.order .gt),
    .binary .assign
  ]

/-- The kind of the longest symbol that a text starts with. -/
def ofSymbol? (text : List Char) : Option Kind :=
  symbolic.find? fun k => k.symbol.isPrefixOf text

theorem symbol_ne_nil_of_mem : ∀ k ∈ symbolic, k.symbol ≠ [] := by decide

theorem ne_eof_of_mem : ∀ k ∈ symbolic, k ≠ .eof := by decide

theorem ofWord_ne_eof (word : String) : ofWord word ≠ .eof := by
  unfold ofWord
  split
  · simp
  · split
    · simp
    · split <;> simp

end Token.Kind

/-! ## Reading tokens -/

/-- A place in a source: the location and the text from there on. -/
structure Cursor where
  loc : Location
  rest : List Char
deriving DecidableEq, Repr

/-- The outcome of reading one token, and where reading goes on. -/
structure ScanStep where
  result : Except (Located ScanError) Token
  cursor : Cursor

namespace Cursor

/-- Moves behind `chars`, leaving `rest`. -/
def skip (cur : Cursor) (chars rest : List Char) : Cursor := ⟨cur.loc.afterAll chars, rest⟩

/-- Moves behind the gap in front of the next token. -/
def skipGap (cur : Cursor) : Cursor :=
  let (gap, rest) := spanGap false cur.rest
  cur.skip gap rest

/-- Reads a number or a word: `c` and every character after it that satisfies `part`. The text must
not break off right behind it, since more of it could follow. -/
def readRun (ending : Ending) (cur : Cursor) (c : Char) (cs : List Char) (part : Char → Bool)
    (kind : String → Token.Kind) : ScanStep :=
  let chars := c :: cs.takeWhile part
  let rest := cs.dropWhile part
  let word := String.ofList chars
  let result :=
    match ending, rest with
    | .broken message, [] => .error ⟨cur.loc, .unreadable message⟩
    | _, _ => .ok ⟨kind word, word, cur.loc⟩
  ⟨result, cur.skip chars rest⟩

/-- Reads the token at a place that is not in front of a gap. -/
def readToken (ending : Ending) (cur : Cursor) : ScanStep :=
  match cur.rest with
  | [] =>
    match ending with
    | .clean => ⟨.ok (.eofAt cur.loc), cur⟩
    | .broken message => ⟨.error ⟨cur.loc, .unreadable message⟩, cur⟩
  | c :: cs =>
    if c.isDigit then cur.readRun ending c cs Char.isDigit fun _ => .integer
    else if isNameStart c then cur.readRun ending c cs isNamePart .ofWord
    else
      match Token.Kind.ofSymbol? (c :: cs) with
      | some kind =>
        ⟨.ok ⟨kind, String.ofList kind.symbol, cur.loc⟩,
          cur.skip kind.symbol ((c :: cs).drop kind.symbol.length)⟩
      | none => ⟨.error ⟨cur.loc, .invalidCharacter c⟩, cur.skip [c] cs⟩

/-- Reads the next token. -/
def next (ending : Ending) (cur : Cursor) : ScanStep := cur.skipGap.readToken ending

theorem skipGap_rest_length_le (cur : Cursor) : cur.skipGap.rest.length ≤ cur.rest.length :=
  spanGap_rest_length_le false cur.rest

private theorem dropWhile_length_lt (p : Char → Bool) (c : Char) (cs : List Char) :
    (cs.dropWhile p).length < (c :: cs).length :=
  Nat.lt_succ_of_le (List.dropWhile_sublist p).length_le

theorem readToken_rest_lt {ending : Ending} {cur : Cursor} {t : Token}
    (h : (cur.readToken ending).result = .ok t) (ht : t.kind ≠ .eof) :
    (cur.readToken ending).cursor.rest.length < cur.rest.length := by
  unfold readToken at h ⊢
  split at h
  · -- at the end there is only the end token
    cases ending with
    | clean => cases h; exact absurd rfl ht
    | broken m => cases h
  · rename_i c cs hrest
    rw [hrest]
    split
    · exact dropWhile_length_lt _ c cs
    · split
      · exact dropWhile_length_lt _ c cs
      · split
        · rename_i kind hk
          have hne := Token.Kind.symbol_ne_nil_of_mem kind (List.mem_of_find?_eq_some hk)
          have hpos : 0 < kind.symbol.length := List.length_pos_iff.mpr hne
          simp only [skip, List.length_drop, List.length_cons]
          omega
        · exact Nat.lt_succ_self _

/-- Every token but the end token consumes something. -/
theorem next_rest_lt {ending : Ending} {cur : Cursor} {t : Token}
    (h : (cur.next ending).result = .ok t) (ht : t.kind ≠ .eof) :
    (cur.next ending).cursor.rest.length < cur.rest.length :=
  Nat.lt_of_lt_of_le (readToken_rest_lt h ht) cur.skipGap_rest_length_le

/-- Reads all tokens from a place up to and including the end token. -/
def scan (ending : Ending) (cur : Cursor) : Except (Located ScanError) (List Token) :=
  match h : (cur.next ending).result with
  | .error e => .error e
  | .ok t =>
    if ht : t.kind = .eof then .ok [t]
    else
      have := next_rest_lt h ht
      match scan ending (cur.next ending).cursor with
      | .error e => .error e
      | .ok ts => .ok (t :: ts)
termination_by cur.rest.length

/-- Reads `count` times, going on after failures and at the end. -/
def steps (ending : Ending) : Nat → Cursor → List (Except (Located ScanError) Token)
  | 0, _ => []
  | count + 1, cur => (cur.next ending).result :: steps ending count (cur.next ending).cursor

end Cursor

namespace Source

/-- The beginning of a source. -/
def cursor (s : Source) : Cursor := ⟨.start s.name, s.chars⟩

/-- All tokens of a source, the end token last. -/
def scan (s : Source) : Except (Located ScanError) (List Token) := s.cursor.scan s.ending

end Source

end Reckon
