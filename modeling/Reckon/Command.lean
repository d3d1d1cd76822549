import Reckon.Session
import Reckon.Settings.Decode

/-!
# The command line

A command line is made of flags and at most one file. The source to run is the one given by a flag,
the file, or the standard input; the settings come from a file and from flags, which win.

* `Options.parse`: the options that arguments give.
* `Command.outcome`: what running the command gives.
-/

namespace Reckon

/-- The flags. -/
inductive Flag
  | config | source | echo | noPrelude | trace
deriving DecidableEq, Repr

/-- The flag with a name. -/
def Flag.ofName? : String → Option Flag
  | "config" => some .config
  | "e" => some .source
  | "echo" => some .echo
  | "noprelude" => some .noPrelude
  | "trace" => some .trace
  | _ => none

/-- What the flags say. A switch that is not mentioned says nothing. -/
structure Options where
  config : String := ""
  source : String := ""
  echo : Option Bool := none
  noPrelude : Option Bool := none
  trace : Option Bool := none
  arguments : List String := []
deriving DecidableEq, Repr

/-- Why arguments give no options. -/
inductive UsageError
  | help
  | malformed (argument : String)
  | undefined (name : String)
  | missingValue (name : String)
  | invalidSwitch (name value : String)
  | tooManyFiles
deriving DecidableEq, Repr

namespace UsageError

/-- The wording of a usage error, if it has one. -/
def message? : UsageError → Option String
  | help => none
  | malformed argument => some ("bad flag syntax: " ++ argument)
  | undefined name => some ("flag provided but not defined: -" ++ name)
  | missingValue name => some ("flag needs an argument: -" ++ name)
  | invalidSwitch name value =>
    some ("invalid boolean value " ++ Text.quote value ++ " for -" ++ name ++ ": parse error")
  | tooManyFiles => none

/-- The exit code of a usage error. Asking for help is none. -/
def exitCode : UsageError → Nat
  | help => 0
  | _ => 2

end UsageError

/-- How the command is used. -/
def usage : String :=
  "Usage of exprlang:\n"
    ++ "  -config string\n    \tYAML configuration file\n"
    ++ "  -e source\n    \tevaluate source instead of a file\n"
    ++ "  -echo\n    \tprint the value of the last expression\n"
    ++ "  -noprelude\n    \tdo not load the embedded prelude\n"
    ++ "  -trace\n    \tlog tokens and syntax trees to stderr\n"

/-! ## Flags -/

/-- One argument. -/
inductive Argument
  /-- Not a flag: it and all that follow are files. -/
  | plain
  /-- Two dashes: all that follow are files. -/
  | endOfFlags
  | malformed
  | flag (name : String) (value : Option String)
deriving DecidableEq, Repr

/-- The name and the value of a flag, which stand around the first equals sign behind the first
character. -/
def Argument.ofFlagText : List Char → Argument
  | [] => .malformed
  | c :: cs =>
    if c = '-' ∨ c = '=' then .malformed
    else
      let name := String.ofList (c :: cs.takeWhile (· ≠ '='))
      match cs.dropWhile (· ≠ '=') with
      | [] => .flag name none
      | _ :: value => .flag name (some (String.ofList value))

/-- What an argument is. A flag starts with one dash or two; one dash alone is a file. -/
def Argument.ofString (s : String) : Argument :=
  match s.toList with
  | ['-', '-'] => .endOfFlags
  | '-' :: '-' :: cs => .ofFlagText cs
  | '-' :: c :: cs => .ofFlagText (c :: cs)
  | _ => .plain

/-- The truth value of a switch's value. -/
def switchValue? (s : String) : Option Bool :=
  if ["1", "t", "T", "TRUE", "true", "True"].contains s then some true
  else if ["0", "f", "F", "FALSE", "false", "False"].contains s then some false
  else none

namespace Options

/-- Sets a flag that takes a text. -/
def setText (o : Options) (value : String) : Flag → Options
  | .config => { o with config := value }
  | .source => { o with source := value }
  | _ => o

/-- Sets a switch. -/
def setSwitch (o : Options) (value : Bool) : Flag → Options
  | .echo => { o with echo := some value }
  | .noPrelude => { o with noPrelude := some value }
  | .trace => { o with trace := some value }
  | _ => o

/-- The flag takes a text, which may be the next argument. A switch takes none. -/
def takesText : Flag → Bool
  | .config | .source => true
  | _ => false

/-- Reads flags up to the first argument that is none. A repeated flag replaces what it said
before. -/
def readFlags (o : Options) : List String → Except UsageError Options
  | [] => .ok o
  | arg :: rest =>
    match Argument.ofString arg with
    | .plain => .ok { o with arguments := arg :: rest }
    | .endOfFlags => .ok { o with arguments := rest }
    | .malformed => .error (.malformed arg)
    | .flag name value =>
      match Flag.ofName? name with
      | none => .error (if name = "help" ∨ name = "h" then .help else .undefined name)
      | some f =>
        if takesText f then
          match value, rest with
          | some v, rest => readFlags (o.setText v f) rest
          | none, v :: rest => readFlags (o.setText v f) rest
          | none, [] => .error (.missingValue name)
        else
          match value with
          | none => readFlags (o.setSwitch true f) rest
          | some v =>
            match switchValue? v with
            | some b => readFlags (o.setSwitch b f) rest
            | none => .error (.invalidSwitch name v)

/-- The options that arguments give. At most one file may be named. -/
def parse (args : List String) : Except UsageError Options :=
  match readFlags {} args with
  | .error e => .error e
  | .ok o => if 1 < o.arguments.length then .error .tooManyFiles else .ok o

/-- The files that may have to be read. -/
def paths (o : Options) : List String :=
  (if o.config = "" then [] else [o.config]) ++ o.arguments

/-- The source is neither given by a flag nor in a file. -/
def readsInput (o : Options) : Bool := o.source = "" && o.arguments.isEmpty

end Options

/-! ## Running -/

/-- What a command can read. -/
structure Inputs where
  file : String → File
  input : List Char

/-- What a command gives: its exit code and what it writes. -/
structure Outcome where
  exitCode : Nat
  output : String
  errors : String
deriving DecidableEq, Repr

namespace Options

/-- The settings with what the flags say. -/
def override (o : Options) (s : Settings) : Settings :=
  { s with
    echo := o.echo.getD s.echo
    trace := o.trace.getD s.trace
    prelude := (o.noPrelude.map (!·)).or s.prelude }

/-- The settings that the command runs with. -/
def settings (o : Options) (i : Inputs) : Except LoadError Settings :=
  if o.config = "" then .ok (o.override .default)
  else (Settings.ofFile o.config (i.file o.config)).map o.override

/-- The source that the command runs. -/
def sourceOf (o : Options) (i : Inputs) : Except String Source :=
  if o.source ≠ "" then .ok (.ofString "<arg>" o.source)
  else
    match o.arguments with
    | path :: _ => (i.file path).source? path
    | [] => .ok ⟨"<stdin>", i.input, .clean⟩

end Options

namespace Command

/-- The outcome of a usage error. -/
def misused (e : UsageError) : Outcome :=
  ⟨e.exitCode, "", (e.message?.map (· ++ "\n")).getD "" ++ usage⟩

/-- The outcome of a failure before anything is run. -/
def failed (message : String) : Outcome := ⟨1, "", message ++ "\n"⟩

/-- The outcome of running a source, behind the prelude if the settings want it. -/
def ran (settings : Settings) (src : Source) : Outcome :=
  let started := Session.start settings
  let ⟨session, early⟩ : Session × String :=
    if settings.wantsPrelude false then
      let r := started.loadPrelude
      (r.session, r.traceText)
    else (started, "")
  let r := session.run src
  match r.result with
  | .ok _ => ⟨0, r.output, early ++ r.traceText⟩
  | .error f => ⟨1, r.output, early ++ r.traceText ++ f.text ++ "\n"⟩

/-- The outcome of running the command with options. -/
def execute (o : Options) (i : Inputs) : Outcome :=
  match o.settings i with
  | .error e => failed e.message
  | .ok settings =>
    match o.sourceOf i with
    | .error message => failed message
    | .ok src => ran settings src

/-- The outcome of running the command with arguments. -/
def outcome (args : List String) (i : Inputs) : Outcome :=
  match Options.parse args with
  | .error e => misused e
  | .ok o => execute o i

end Command

end Reckon
