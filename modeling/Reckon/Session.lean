import Reckon.Evaluation
import Reckon.Expr.Printer
import Reckon.Failure
import Reckon.Settings

/-!
# Sessions

A session keeps the declarations and the bindings of the runs so far. A run scans, parses, checks
and evaluates one source. A run that fails leaves the session as it was; what it has printed stays
printed.

* `Session.run`, `Session.echo`, `Session.loadPrelude`: running a source.
* `Session.eval`: checking and evaluating a program.
* `Session.interpret`: evaluating a program without checking it, which keeps what it has bound also
  if it fails.
* `Reply`: the outcome of one of these, the session after it, and what it has printed and traced.
-/

namespace Reckon

/-- The declarations and bindings of the runs so far. -/
structure Session where
  settings : Settings
  table : Table Decl
  env : Env

/-- What a trace reports. -/
inductive TraceEvent
  | token (t : Token)
  | parsed (p : Program)
  | checked (e : Expr)
deriving DecidableEq, Repr

/-- The line or lines of a trace event. -/
def TraceEvent.text : TraceEvent → String
  | token t => "trace: " ++ t.text ++ "\n"
  | parsed p => "trace: parsed:\n" ++ Program.text p
  | checked e => "trace: checked: " ++ e.text ++ " : " ++ e.ty.name ++ "\n"

/-- The outcome of an operation on a session, the session after it, the values it has printed and
what it has traced. -/
structure Reply (α : Type) where
  result : Except Failure α
  session : Session
  printed : List Value
  trace : List TraceEvent

namespace Reply

variable {α : Type}

/-- The printed values, one on each line. -/
def output (r : Reply α) : String := String.join (r.printed.map fun v => v.text ++ "\n")

/-- The lines of the trace. -/
def traceText (r : Reply α) : String := String.join (r.trace.map TraceEvent.text)

end Reply

/-- Scans a source. -/
def Source.tokens (src : Source) : Except Failure (List Token) := src.scan.mapError .scan

/-- Parses tokens. -/
def parseTokens (ts : List Token) : Except Failure Program := (parse ts).mapError .parse

/-- Scans and parses a source. -/
def Source.program (src : Source) : Except Failure Program :=
  match src.tokens with
  | .error f => .error f
  | .ok ts => parseTokens ts

/-- The source of the prelude. -/
def preludeSource : Source :=
  .ofString "/prelude.expr"
    "# Limits of the 32-bit integer type.\nint_max = 2147483647\nint_min = (-2147483647) - 1\n"

namespace Session

/-- A session before its first run. -/
def start (settings : Settings) : Session := ⟨settings, Decl.standard, Env.standard⟩

/-- What is traced, if the session traces at all. -/
def traced (s : Session) (events : List TraceEvent) : List TraceEvent :=
  if s.settings.trace then events else []

/-- Scans and parses a source, tracing the tokens and the program. -/
def parse (s : Session) (src : Source) : Reply Program :=
  match src.tokens with
  | .error f => ⟨.error f, s, [], []⟩
  | .ok ts =>
    match parseTokens ts with
    | .error f => ⟨.error f, s, [], s.traced (ts.map .token)⟩
    | .ok p => ⟨.ok p, s, [], s.traced (ts.map .token ++ [.parsed p])⟩

/-- Checks and evaluates a program. If either fails the session stays as it was. -/
def eval (s : Session) (p : Program) : Reply Value :=
  let c := Program.check s.table p
  match c.result with
  | .error e => ⟨.error (.check e), s, [], []⟩
  | .ok () =>
    let trace := s.traced (c.tree.map .checked)
    let r := Program.eval s.settings.dialect s.env c.tree
    match r.result with
    | .error e => ⟨.error (.eval e), s, r.printed, trace⟩
    | .ok v => ⟨.ok v, { s with table := c.table, env := r.env }, r.printed, trace⟩

/-- Evaluates a program as it is, without checking it. -/
def interpret (s : Session) (p : Program) : Reply Value :=
  let r := Program.eval s.settings.dialect s.env p
  ⟨r.result.mapError .eval, { s with env := r.env }, r.printed, []⟩

/-- What is shown of the value of a run. -/
def echoed (echo : Bool) (v : Value) : List Value := if echo ∧ v ≠ .unit then [v] else []

/-- Runs a source and shows its value if `echo` says so. -/
def runWith (s : Session) (echo : Bool) (src : Source) : Reply Value :=
  let parsed := s.parse src
  match parsed.result with
  | .error f => ⟨.error f, s, [], parsed.trace⟩
  | .ok p =>
    let r := s.eval p
    let shown :=
      match r.result with
      | .ok v => echoed echo v
      | .error _ => []
    ⟨r.result, r.session, r.printed ++ shown, parsed.trace ++ r.trace⟩

/-- Runs a source and shows its value if the settings say so. -/
def run (s : Session) (src : Source) : Reply Value := s.runWith s.settings.echo src

/-- Runs a source and shows its value. -/
def echo (s : Session) (src : Source) : Reply Value := s.runWith true src

/-- Runs the prelude, without showing its value. -/
def loadPrelude (s : Session) : Reply Value := s.runWith false preludeSource

end Session

end Reckon
