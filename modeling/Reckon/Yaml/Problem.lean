/-!
# Syntax errors

Why a text cannot be read, and the line that is reported with it.

* `Problem.message`, `SyntaxError.message`: their wording.
-/

namespace Reckon.Yaml

/-- Where a character stands. Lines and columns count from zero. -/
structure Mark where
  index : Nat
  line : Nat
  column : Nat
deriving DecidableEq, Repr

/-- Why a text cannot be read. -/
inductive Problem
  | controlCharacter
  | input (reason : String)
  | cannotStartToken
  | mappingValue
  | mappingKey
  | sequenceEntry
  | missingColon
  | tooDeep
  | documentIndicator
  | endOfStream
  | unknownEscape
  | hexadecimal
  | invalidEscapeCode
  | tabIndentation
  | nodeContent
  | expectedKey
  | expectedDash
  | expectedCommaOrBracket
  | expectedCommaOrBrace
deriving DecidableEq, Repr

/-- How many blocks or brackets may be open at once. -/
def maxDepth : Nat := 10000

/-- The wording of a problem. -/
def Problem.message : Problem → String
  | controlCharacter => "control characters are not allowed"
  | input reason => "input error: " ++ reason
  | cannotStartToken => "found character that cannot start any token"
  | mappingValue => "mapping values are not allowed in this context"
  | mappingKey => "mapping keys are not allowed in this context"
  | sequenceEntry => "block sequence entries are not allowed in this context"
  | missingColon => "could not find expected ':'"
  | tooDeep => "exceeded max depth of " ++ toString maxDepth
  | documentIndicator => "found unexpected document indicator"
  | endOfStream => "found unexpected end of stream"
  | unknownEscape => "found unknown escape character"
  | hexadecimal => "did not find expected hexdecimal number"
  | invalidEscapeCode => "found invalid Unicode character escape code"
  | tabIndentation => "found a tab character that violates indentation"
  | nodeContent => "did not find expected node content"
  | expectedKey => "did not find expected key"
  | expectedDash => "did not find expected '-' indicator"
  | expectedCommaOrBracket => "did not find expected ',' or ']'"
  | expectedCommaOrBrace => "did not find expected ',' or '\x7d'"

/-- A problem and the number of the line it is reported with; zero is not shown. -/
structure SyntaxError where
  line : Nat
  problem : Problem
deriving DecidableEq, Repr

namespace SyntaxError

/-- The wording of a syntax error. -/
def message (e : SyntaxError) : String :=
  if e.line = 0 then e.problem.message
  else "line " ++ toString e.line ++ ": " ++ e.problem.message

/-- The first of two line numbers that is not zero: that of the construct being read, or else that
of the place where it went wrong. -/
def reportedLine (construct place : Nat) : Nat := if construct = 0 then place else construct

/-- A problem met while cutting a text into lexemes. Lines are reported from one, except that the
first line is not. -/
def scanning (problem : Problem) (construct place : Mark) : SyntaxError :=
  match reportedLine construct.line place.line with
  | 0 => ⟨0, problem⟩
  | line => ⟨line + 1, problem⟩

/-- A problem met while building nodes. Lines are reported from zero. -/
def building (problem : Problem) (construct place : Mark) : SyntaxError :=
  ⟨reportedLine construct.line place.line, problem⟩

/-- A character that may not stand in a text was met. -/
def forbidden : SyntaxError := ⟨0, .controlCharacter⟩

end SyntaxError

end Reckon.Yaml
