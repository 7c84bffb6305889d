-- Compiling templates: a template becomes the program that constructs its user interface and
-- binds it to its owner. The numbers of its markers are handed to it from outside, because templates
-- that are compiled together number their markers in common.
import ViewBinder.Markup.Load
import ViewBinder.Program.Layout
import ViewBinder.Template.Assembly
import ViewBinder.Template.Binding
import ViewBinder.Template.Directive

namespace ViewBinder

open Markup (Document)
open Session

/-- A template to compile. -/
structure Template where
  source : Text
  /-- The name of the template in diagnostics. -/
  url : Text
  /-- The type the template is bound to. -/
  owner : Option TypeId := none
  /-- The name of the generated type; empty to name it after the template. -/
  binderName : Text := []
  /-- Where the files are that the template refers to. -/
  files : Option FileSource := none
  deriving Repr

/-- A compiled template. -/
structure Compiled where
  program : Program
  text : Text
  warnings : List Diagnostic
  deriving Repr

/-- What compiling a template gives: a program or a failure, everything that was reported, and how
many markers were made. -/
structure Outcome where
  answer : Except Failure Compiled
  log : Log := {}
  markers : Nat := 0

namespace Template

/-- The name of the generated type. -/
def name (t : Template) (settings : Settings) : Text :=
  if t.binderName.isEmpty then Program.binderNameOf t.url settings.templateSuffix else t.binderName

/-- The session a template starts with. `supply` numbers the markers. -/
def start (t : Template) (c : Catalog) (settings : Settings) (supply : Nat → Nat)
    (document : Document) : Session :=
  { document, catalog := c, imports := { self := settings.packagePath }, markers := { supply },
    parsers := Attribute.Parsers.of c, owner := t.owner,
    ownerTraits := t.owner.map fun owner => c.describe owner }

/-- Attributes of the root that are accepted and mean nothing. -/
def generatorAttributes : List Text :=
  ["generateFormat", "generateKeys", "generateLocales", "generateFilename"]

/-- The only child of the root that is not a directive. -/
def interface (root : Nat) : List Nat → Option Nat → Work Session Nat
  | [], some ui => return ui
  | [], none => failOn root fun d => .noUi (d.tag root)
  | child :: rest, ui => do
    if (← getDocument).isBinder child then interface root rest ui
    else match ui with
      | some first =>
        failOn child fun d => .secondUi (d.tag root) (d.tag first) (d.tag child)
      | none => interface root rest (some child)

/-- Fails if an error was reported. -/
def failIfReported : Work Session Unit := do
  match (← get).log.failure? with
  | some failure => throw failure
  | none => return ()

/-- Gathers what a template declares: its directives, its interface and the bindings of its owner;
and gives the field of the interface. -/
def gather (root : Nat) : Work Session FieldId := do
  for attr in generatorAttributes do discard (Document.takeBinder root attr)
  Document.assertNoAttributes root
  Document.assertNoText root
  let d ← getDocument
  let ui ← interface root (d.childElements root) none
  Directive.followAll (← Document.takeChildrenWhere root d.isBinder)
  discard (Document.takeChildren root)
  let f ← Element.build ui
  discard (Draft.use f)
  failIfReported
  Binding.bindOwner ui
  return f

/-- Reads the whole template, and settles its references when all of its fields are known. -/
def read (root : Nat) : Work Session FieldId := do
  let f ← gather root
  Draft.settleReferences
  failIfReported
  return f

/-- The program as text, with every marker replaced. -/
def weave (p : Program) : Work Session Text := do
  match ← (Markers.weave p.render : Work Markers Text).attempt with
  | .error failure => failAt none (.failedWeaving failure.text)
  | .ok text =>
    if Marker.occursIn text then
      let found := ((← get).markers.entriesIn text).head?
      failAt (found.bind (·.place)) .markerLeft
    return text

/-- Compiles the document of a template. Any text can be laid out, so a program whose statements are
no statements of the language does not fail here as it does where it is parsed first. -/
def compileDocument (t : Template) (settings : Settings) : Work Session Compiled := do
  let name := t.name settings
  Draft.openBundle
    { package := settings.packagePath, packageName := settings.package, lead := name,
      files := t.files }
  Draft.openMessages settings.packagePath settings.package (name ++ "Messages")
  let f ← read 0
  let program ← Assembly.assemble settings t.url name f
  let text ← weave program
  let text := if settings.format then Layout.format text else text
  return ⟨program, text, (← get).log.warnings⟩

/-- The root of a template must be the binder. -/
def checkRoot (d : Document) : Except Failure Unit :=
  let name := d.name 0
  if Markup.isBinderUri name.uri && name.base == "UiBinder" then .ok ()
  else .error (Problem.failure (.notBinderRoot Markup.binderUri (d.tag 0)) (d.location 0))

/-- Compiles a template, its markers numbered by `supply`. -/
def compileWith (supply : Nat → Nat) (c : Catalog) (settings : Settings) (t : Template) : Outcome :=
  match (do let d ← Document.load t.source t.url; checkRoot d; return d) with
  | .error failure => { answer := .error failure }
  | .ok d =>
    let (answer, s) := (t.compileDocument settings).runOn (t.start c settings supply d)
    ⟨answer, s.log, s.markers.size⟩

/-- Compiles a template. -/
def compile (t : Template) (c : Catalog) (settings : Settings) : Outcome :=
  compileWith (· + 1) c settings t

/-- Compiles templates one after the other; `used` numbers were handed out before. -/
def compileFrom (c : Catalog) (settings : Settings) (used : Nat) : List Template → List Outcome
  | [] => []
  | t :: rest =>
    let outcome := compileWith (· + used + 1) c settings t
    outcome :: compileFrom c settings (used + outcome.markers) rest

end Template

end ViewBinder
