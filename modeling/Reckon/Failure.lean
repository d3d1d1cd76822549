import Reckon.Expr.Parser
import Reckon.Token.Scan
import Reckon.Typing
import Reckon.Value

/-!
# Failures

A run fails at one of four stages, with a cause of that stage and a location.

* `Failure`: a cause, its location and its stage.
* `Failure.text`: the line that reports it.
-/

namespace Reckon

/-- The stages of a run. -/
inductive Stage
  | scan | parse | check | eval
deriving DecidableEq, Repr

namespace Stage

/-- The stages in the order of their codes. -/
def all : List Stage := [.scan, .parse, .check, .eval]

/-- How the errors of a stage are called. -/
def errorName : Stage → String
  | scan => "Scanner Error"
  | parse => "Parser Error"
  | check => "Checker Error"
  | eval => "Interpreter Error"

/-- How the errors of the stage with a code are called; the code itself where there is no such
stage. -/
def errorNameOfCode (code : Int) : String :=
  let found := if code < 0 then none else all[code.toNat]?
  match found with
  | some s => s.errorName
  | none => "ErrorKind(" ++ toString code ++ ")"

end Stage

/-- The line that reports an error. -/
def errorLine (loc? : Option Location) (errorName message : String) : String :=
  match loc? with
  | some loc => loc.text ++ " - " ++ errorName ++ ": " ++ message
  | none => errorName ++ ": " ++ message

/-- Why a run failed. -/
inductive Failure
  | scan (e : Located ScanError)
  | parse (e : Located ParseError)
  | check (e : Located CheckError)
  | eval (e : Located EvalError)
deriving DecidableEq, Repr

namespace Failure

/-- The stage of a failure. -/
def stage : Failure → Stage
  | scan _ => .scan
  | parse _ => .parse
  | check _ => .check
  | eval _ => .eval

/-- The location of a failure. -/
def loc : Failure → Location
  | scan e => e.loc
  | parse e => e.loc
  | check e => e.loc
  | eval e => e.loc

/-- The wording of a failure, without its location and stage. -/
def message : Failure → String
  | scan e => e.cause.message
  | parse e => e.cause.message
  | check e => e.cause.message
  | eval e => e.cause.message

/-- The line that reports a failure. -/
def text (f : Failure) : String := errorLine (some f.loc) f.stage.errorName f.message

end Failure

end Reckon
