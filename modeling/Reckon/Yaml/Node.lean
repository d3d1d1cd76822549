import Reckon.Yaml.Lexeme

/-!
# Nodes

A document is a scalar, a sequence of nodes, or a mapping from nodes to nodes. Only the first
document of a text is read, and no more lexemes behind it than come with it.

* `Node`: the nodes, each with the line it begins on.
* `Node.ofText?`: the first document of a text, if there is one.
-/

namespace Reckon.Yaml

open Lexing

/-- A node and the number of the line it begins on. -/
inductive Node
  | scalar (line : Nat) (quoted : Bool) (text : String)
  | sequence (line : Nat) (items : List Node)
  | mapping (line : Nat) (entries : List (Node × Node))

namespace Node

/-- The line a node begins on. -/
def line : Node → Nat
  | scalar l _ _ | sequence l _ | mapping l _ => l

/-- What stands where nothing is written. -/
def nothing (mark : Mark) : Node := .scalar (mark.line + 1) false ""

end Node

/-- Fails while building a node. -/
def misplaced {α : Type} (problem : Problem) (construct place : Mark) : Lexing α :=
  throw (.building problem construct place)

mutual

/-- Reads a node. In a block it may be a block itself; where `indentless`, dashes on the level of
the keys make a sequence. -/
def readNode (fuel : Nat) (block indentless : Bool) : Lexing Node :=
  match fuel with
  | 0 => throw ⟨0, .nodeContent⟩
  | fuel + 1 => do
    let l ← peek
    let line := l.mark.line + 1
    match l.kind, block, indentless with
    | .dash, _, true => return .sequence line (← readIndentlessItems fuel)
    | .scalar quoted text, _, _ =>
      take
      return .scalar line quoted text
    | .openBracket, _, _ => return .sequence line (← readFlowItems fuel l.mark true)
    | .openBrace, _, _ => return .mapping line (← readFlowEntries fuel l.mark true)
    | .sequenceStart, true, _ => return .sequence line (← readBlockItems fuel l.mark true)
    | .mappingStart, true, _ => return .mapping line (← readBlockEntries fuel l.mark true)
    | _, _, _ => misplaced .nodeContent l.mark l.mark

/-- Reads the items of a block sequence. -/
def readBlockItems (fuel : Nat) (start : Mark) (first : Bool) : Lexing (List Node) :=
  match fuel with
  | 0 => throw ⟨0, .expectedDash⟩
  | fuel + 1 => do
    settled
    if first then
      let _ ← peek
      take
    let l ← peek
    match l.kind with
    | .dash =>
      take
      let next ← peek
      let item ←
        if [.dash, .blockEnd].contains next.kind then pure (.nothing l.mark)
        else readNode fuel true false
      return item :: (← readBlockItems fuel start false)
    | .blockEnd =>
      take
      return []
    | _ => misplaced .expectedDash start l.mark

/-- Reads the items of a sequence that is indented no deeper than the key it belongs to. -/
def readIndentlessItems (fuel : Nat) : Lexing (List Node) :=
  match fuel with
  | 0 => throw ⟨0, .expectedDash⟩
  | fuel + 1 => do
    settled
    let l ← peek
    if l.kind != .dash then return []
    else
      take
      let next ← peek
      let item ←
        if [.dash, .key, .value, .blockEnd].contains next.kind then pure (.nothing l.mark)
        else readNode fuel true false
      return item :: (← readIndentlessItems fuel)

/-- Reads the entries of a block mapping. -/
def readBlockEntries (fuel : Nat) (start : Mark) (first : Bool) : Lexing (List (Node × Node)) :=
  match fuel with
  | 0 => throw ⟨0, .expectedKey⟩
  | fuel + 1 => do
    settled
    if first then
      let _ ← peek
      take
    let l ← peek
    match l.kind with
    | .key =>
      take
      let key ← readBlockPart fuel l.mark
      settled
      let l ← peek
      let value ←
        if l.kind = .value then do
          take
          readBlockPart fuel l.mark
        else pure (.nothing l.mark)
      return (key, value) :: (← readBlockEntries fuel start false)
    | .blockEnd =>
      take
      return []
    | _ => misplaced .expectedKey start l.mark

/-- Reads a key or a value of a block mapping behind its indicator, which stands at `mark`. -/
def readBlockPart (fuel : Nat) (mark : Mark) : Lexing Node :=
  match fuel with
  | 0 => throw ⟨0, .nodeContent⟩
  | fuel + 1 => do
    let next ← peek
    if [.key, .value, .blockEnd].contains next.kind then return .nothing mark
    else readNode fuel true true

/-- Reads the items of a sequence in brackets. A key among them is a mapping with one entry. -/
def readFlowItems (fuel : Nat) (start : Mark) (first : Bool) : Lexing (List Node) :=
  match fuel with
  | 0 => throw ⟨0, .expectedCommaOrBracket⟩
  | fuel + 1 => do
    settled
    if first then
      let _ ← peek
      take
    let mut l ← peek
    if !first && l.kind != .closeBracket then
      if l.kind != .comma then misplaced .expectedCommaOrBracket start l.mark
      take
      l ← peek
    match l.kind with
    | .closeBracket =>
      take
      return []
    | .key =>
      take
      let entry ← readFlowPair fuel
      return .mapping (l.mark.line + 1) [entry] :: (← readFlowItems fuel start false)
    | _ =>
      let item ← readNode fuel false false
      return item :: (← readFlowItems fuel start false)

/-- Reads the entry that a key in brackets begins. Where the key is empty, the lexeme behind it is
used up with it. -/
def readFlowPair (fuel : Nat) : Lexing (Node × Node) :=
  match fuel with
  | 0 => throw ⟨0, .nodeContent⟩
  | fuel + 1 => do
    settled
    let l ← peek
    let key ←
      if [.value, .comma, .closeBracket].contains l.kind then do
        take
        pure (.nothing l.mark)
      else readNode fuel false false
    let value ← readFlowValue fuel .closeBracket
    settled
    let _ ← peek
    return (key, value)

/-- Reads the entries of a mapping in braces. An entry without a colon is a key with no value. -/
def readFlowEntries (fuel : Nat) (start : Mark) (first : Bool) : Lexing (List (Node × Node)) :=
  match fuel with
  | 0 => throw ⟨0, .expectedCommaOrBrace⟩
  | fuel + 1 => do
    settled
    if first then
      let _ ← peek
      take
    let mut l ← peek
    if !first && l.kind != .closeBrace then
      if l.kind != .comma then misplaced .expectedCommaOrBrace start l.mark
      take
      l ← peek
    match l.kind with
    | .closeBrace =>
      take
      return []
    | .key =>
      take
      let next ← peek
      let key ←
        if [.value, .comma, .closeBrace].contains next.kind then pure (.nothing next.mark)
        else readNode fuel false false
      let value ← readFlowValue fuel .closeBrace
      return (key, value) :: (← readFlowEntries fuel start false)
    | _ =>
      let key ← readNode fuel false false
      settled
      let next ← peek
      return (key, .nothing next.mark) :: (← readFlowEntries fuel start false)

/-- Reads the value of an entry inside the bracket that `close` closes. -/
def readFlowValue (fuel : Nat) (close : LexemeKind) : Lexing Node :=
  match fuel with
  | 0 => throw ⟨0, .nodeContent⟩
  | fuel + 1 => do
    settled
    let l ← peek
    if l.kind != .value then return .nothing l.mark
    else
      take
      let next ← peek
      if [.comma, close].contains next.kind then return .nothing next.mark
      else readNode fuel false false

end

/-- Reads the first document, if there is one, up to its end. -/
def readDocument (fuel : Nat) : Lexing (Option Node) := do
  let _ ← peek
  take
  settled
  let l ← peek
  if l.kind = .documentStart then take
  settled
  if l.kind = .streamEnd then return none
  let next ← peek
  let empty :=
    l.kind = .documentStart
      && [.documentStart, .documentEnd, .streamEnd].contains next.kind
  let node ← if empty then pure (.nothing next.mark) else readNode fuel true false
  settled
  let _ ← peek
  settled
  return some node

/-- The first document of a text, if there is one. -/
def Node.ofText? (text : List Char) : Except SyntaxError (Option Node) :=
  match readDocument (16 * text.length + 64) { reader := .ofText text } with
  | .ok (node, _) => .ok node
  | .error e => .error e

end Reckon.Yaml
