-- Diagnostics: what went wrong, of which kind, and where. A log collects the diagnostics of one
-- unit in the order they were reported; a failure is what a unit, or a step of it, ends with.
import ViewBinder.Source.Location

namespace ViewBinder

/-- The kinds of errors. Other codes can be reported, but have no name. -/
inductive ErrorKind where
  /-- Malformed input or an unexpected node. -/
  | structural
  /-- A missing, unreadable or forbidden attribute. -/
  | attributes
  /-- A problem with fields, setters, references or owner fields. -/
  | symbol
  /-- A missing resource or a clash of generated names. -/
  | resource
  /-- A broken invariant of the compiler. -/
  | internal
  /-- A kind without a name; the code zero means that there is no kind. -/
  | code (n : Int)
  deriving DecidableEq, Repr

namespace ErrorKind

/-- The kind with a numeric code. -/
def ofCode (n : Int) : ErrorKind :=
  if n == 1 then structural else if n == 2 then .attributes else if n == 3 then symbol
  else if n == 4 then resource else if n == 5 then internal else code n

/-- The name shown in messages. -/
def name : ErrorKind → Text
  | structural => "StructuralError"
  | .attributes => "AttributeError"
  | symbol => "SymbolError"
  | resource => "ResourceError"
  | internal => "InternalError"
  | code n => "ErrorKind(" ++ Text.ofInt n ++ ")"

/-- No kind at all. -/
def isNone (k : ErrorKind) : Bool := k == code 0

end ErrorKind

/-- How serious a diagnostic is. -/
inductive Level where
  | warning
  | error
  deriving DecidableEq, Repr

namespace Level

/-- The level with a numeric code. -/
def ofCode (n : Int) : Level := if n == 0 then warning else error

/-- The name shown in messages. -/
def name : Level → Text
  | warning => "WARNING"
  | error => "ERROR"

end Level

/-- One finding, tied to a stretch of source. -/
structure Diagnostic where
  kind : ErrorKind
  span : Option Span
  message : Text
  level : Level
  deriving DecidableEq, Repr

namespace Diagnostic

/-- A diagnostic at a location. -/
def make (level : Level) (kind : ErrorKind) (place : Option Location) (message : Text) :
    Diagnostic :=
  ⟨kind, place.map fun l => Span.between (some l) (some l), message, level⟩

/-- Where the span starts. -/
def location (d : Diagnostic) : Option Location := d.span.bind (·.start)

/-- Kind, message, place and remark on one line. -/
def text (d : Diagnostic) : Text :=
  let place : Text := match d.location with
    | some l => ": " ++ l.text
    | none => []
  let details : Text := match d.span with
    | some s => Text.onlyIf (!s.details.isEmpty) (", " ++ s.details)
    | none => []
  Text.onlyIf (!d.kind.isNone) (d.kind.name ++ ": ") ++ d.message ++ place ++ details

/-- The message with the source around the place: at most 100 bytes and 3 lines on each side. -/
def contextual (d : Diagnostic) : Text :=
  match d.location.bind (·.context? 100 3) with
  | some (before, after) =>
    d.message ++ " (\"" ++ before ++ "[" ++ d.level.name ++ " ->]" ++ after ++ "\")"
  | none => d.message

end Diagnostic

/-- How a unit of work fails. -/
inductive Failure where
  /-- One diagnostic. -/
  | one (d : Diagnostic)
  /-- Several diagnostics that were collected before giving up. -/
  | many (ds : List Diagnostic)
  /-- An error that has no place in a source. -/
  | plain (message : Text)
  /-- A type was asked for that does not exist, or a parameter that a method does not have. -/
  | crash
  deriving DecidableEq, Repr

namespace Failure

/-- The message of a failure; several diagnostics stand on a line each. -/
def text : Failure → Text
  | one d => d.text
  | many ds => Text.join "\n" (ds.map (·.text))
  | plain message => message
  | crash => "crash"

/-- The diagnostics a failure carries. -/
def diagnostics : Failure → List Diagnostic
  | one d => [d]
  | many ds => ds
  | _ => []

/-- One of the diagnostics is of the kind. -/
def isOfKind (f : Failure) (kind : ErrorKind) : Bool := f.diagnostics.any (·.kind == kind)

end Failure

/-- The diagnostics of one unit in the order they were reported. -/
structure Log where
  entries : List Diagnostic := []
  deriving DecidableEq, Repr

namespace Log

/-- Adds a diagnostic. -/
def report (log : Log) (level : Level) (kind : ErrorKind) (place : Option Location)
    (message : Text) : Log :=
  ⟨log.entries ++ [Diagnostic.make level kind place message]⟩

/-- Adds a warning, which has no kind. -/
def warn (log : Log) (place : Option Location) (message : Text) : Log :=
  log.report .warning (.code 0) place message

/-- Adds an error. -/
def error (log : Log) (kind : ErrorKind) (place : Option Location) (message : Text) : Log :=
  log.report .error kind place message

/-- The warnings in order. -/
def warnings (log : Log) : List Diagnostic := log.entries.filter (·.level == .warning)

/-- The errors in order. -/
def errors (log : Log) : List Diagnostic := log.entries.filter (·.level == .error)

/-- Some error was reported. -/
def hasErrors (log : Log) : Bool := !log.errors.isEmpty

/-- The failure the reported errors amount to. -/
def failure? (log : Log) : Option Failure :=
  match log.errors with
  | [] => none
  | [d] => some (.one d)
  | ds => some (.many ds)

end Log

/-! ## Work that can fail -/

/-- Work on a state that can fail; what was done before a failure stays done. -/
abbrev Work (σ : Type) := ExceptT Failure (StateM σ)

namespace Work

/-- Work on a part of a larger state. -/
def onPart {σ τ α : Type} (part : τ → σ) (put : σ → τ → τ) (work : Work σ α) : Work τ α :=
  fun whole =>
    let (answer, rest) := work (part whole)
    (answer, put rest whole)

/-- The answer and the state work leaves behind. -/
def runOn {σ α : Type} (work : Work σ α) (state : σ) : Except Failure α × σ := work state

/-- Runs `after` whether or not the work succeeds. -/
def andThenAlways {σ α : Type} (work : Work σ α) (after : σ → σ) : Work σ α :=
  fun state =>
    let (answer, rest) := work state
    (answer, after rest)

/-- The answer of the work, whether it succeeds or fails. -/
def attempt {σ α : Type} (work : Work σ α) : Work σ (Except Failure α) :=
  fun state =>
    let (answer, rest) := work state
    (.ok answer, rest)

end Work

end ViewBinder
