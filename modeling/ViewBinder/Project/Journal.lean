-- The journal of a run: one line per record, with the level, the message and the details as
-- `key=value`. A value that could be taken apart is quoted.
import ViewBinder.Diagnostic.Basic
import ViewBinder.Text.Utf8

namespace ViewBinder

/-- How much a record matters. -/
inductive Severity where
  | debug
  | info
  | warning
  | error
  deriving DecidableEq, Repr

/-- The name of a severity in the journal. -/
def Severity.name : Severity → Text
  | debug => "DEBUG"
  | info => "INFO"
  | warning => "WARN"
  | error => "ERROR"

/-- One record of the journal. -/
structure Record where
  severity : Severity
  message : Text
  details : List (Text × Text) := []
  deriving DecidableEq, Repr

namespace Record

/-- A character that a value may hold without quotes: visible and no blank, quote or equals sign. -/
def isPlain (r : Text.Rune) : Bool :=
  if r.code < 0x80 then 0x20 < r.code && r.code != 0x22 && r.code != 0x3D
  else r.code != Text.replacement && !Text.isSpace r.code && Text.isVisible r.code

/-- A value, in quotes if it is empty or holds anything that is not plain. -/
def value (t : Text) : Text :=
  if !t.isEmpty && t.runes.all isPlain then t else Text.quote t

/-- One detail of a record. -/
def detail (key v : Text) : Text := key ++ "=" ++ value v

/-- A record as a line of the journal. -/
def line (r : Record) : Text :=
  Text.join " " (detail "level" r.severity.name :: detail "msg" r.message ::
    r.details.map fun (key, v) => detail key v)

/-- A diagnostic as it is recorded when it comes up in a template. Only errors have a kind. -/
def ofDiagnostic (url : Text) (d : Diagnostic) : Record :=
  let source : List (Text × Text) :=
    [("component", "binder"), ("unit", url), ("component", "diagnostics")]
  let place : Text × Text := ("location", Location.text? d.location)
  let kind : Text × Text := ("kind", d.kind.name)
  match d.level with
  | .warning => ⟨.warning, d.message, source ++ [place]⟩
  | .error => ⟨.error, d.message, source ++ [kind, place]⟩

end Record

end ViewBinder
