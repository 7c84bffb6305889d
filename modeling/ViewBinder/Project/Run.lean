-- Running a project: every template is compiled, then each program is written beside its template
-- or, in a check, compared with what is written there. A template that fails does not stop the
-- others; a program that cannot be written stops the run.
import ViewBinder.Batch
import ViewBinder.Project.Basic
import ViewBinder.Project.Journal

namespace ViewBinder

/-- What a run does with the programs. -/
inductive Mode where
  /-- Write them. -/
  | write
  /-- Compare them with the files. -/
  | check
  deriving DecidableEq, Repr

/-- How far a run is. -/
structure Progress where
  tree : FileTree
  journal : List Record := []
  /-- How many templates failed. -/
  failed : Nat := 0
  deriving Repr

/-- What a run leaves behind, and why it failed, if it did. -/
structure RunResult where
  tree : FileTree
  journal : List Record := []
  failure : Option Text := none
  deriving Repr

namespace Progress

/-- Adds records. -/
def note (s : Progress) (records : List Record) : Progress :=
  { s with journal := s.journal ++ records }

/-- Counts a template that failed. -/
def fail (s : Progress) (records : List Record) : Progress :=
  { s.note records with failed := s.failed + 1 }

end Progress

namespace Project

/-- The records of a template that does not compile. -/
def failureRecords (file : Text) (f : Failure) : List Record :=
  match f.diagnostics with
  | [] => [⟨.error, f.text, [("template", file)]⟩]
  | ds => ds.map fun d => ⟨.error, d.contextual, [("template", file), ("kind", d.kind.name)]⟩

/-- The records of the warnings of a template. -/
def warningRecords (file : Text) (ws : List Diagnostic) : List Record :=
  ws.map fun w => ⟨.warning, w.contextual, [("template", file)]⟩

/-- Deals with what one template gave. The answer says why the run must stop, if it must. -/
def settle (p : Project) (mode : Mode) (s : Progress) (file : Text) (o : Outcome) :
    Progress × Option Text :=
  match o.answer with
  | .error f => (s.fail (failureRecords file f), none)
  | .ok compiled =>
    let s := s.note (warningRecords file compiled.warnings)
    let out := p.outputPath file
    match mode with
    | .check =>
      match s.tree.read out with
      | .ok content =>
        if content == compiled.text then (s, none) else (s.fail [stale file out], none)
      | .error _ => (s.fail [stale file out], none)
    | .write =>
      match s.tree.store out compiled.text with
      | .ok tree => ({ s with tree }.note [⟨.debug, "wrote", [("output", out)]⟩], none)
      | .error o =>
        (s, some ("failed to write " ++ out ++ ": open " ++ out ++ ": " ++ o.message))
where
  /-- The record of a file that is not what the template compiles to. -/
  stale (file out : Text) : Record :=
    ⟨.error, "generated file is stale", [("template", file), ("output", out)]⟩

/-- Deals with what the templates gave, until something stops the run. -/
def settleAll (p : Project) (mode : Mode) : Progress → List (Text × Outcome) →
    Progress × Option Text
  | s, [] => (s, none)
  | s, (file, o) :: rest =>
    match p.settle mode s file o with
    | (s, none) => settleAll p mode s rest
    | (s, some reason) => (s, some reason)

/-- The records of the templates without an owner. -/
def ownerRecords (p : Project) (templates : List Template) : List Record :=
  templates.filterMap fun t =>
    if t.owner.isSome then none
    else some ⟨.debug, "template has no owner",
      [("template", t.url), ("owner", p.ownerName t.url)]⟩

/-! ## Compiling -/

/-- What compiling a batch gave: what became of each template, and the records of what came up, in the
order in which it did. -/
structure Compilation where
  outcomes : List Outcome
  reports : List Record

/-- The records of what came up in some templates, one after the other. -/
def reportsOf (compiled : List (Template × Outcome)) : List Record :=
  compiled.flatMap fun (t, o) => o.log.entries.map (Record.ofDiagnostic t.url)

/-- The batch compiled one template after the other; `used` numbers were handed out before. -/
def compileInTurn (used : Nat) (b : Batch) : Compilation :=
  let outcomes := b.outcomes used
  ⟨outcomes, reportsOf (b.takenUp (b.templates.zip outcomes))⟩

/-- The record behind the compilation of a batch. -/
def compiledRecord (b : Batch) (outcomes : List Outcome) : Record :=
  let failed := (outcomes.filter fun o => !o.answer.isOk).length
  ⟨.info, "compiled templates", [("units", Text.ofNat outcomes.length),
    ("failed", Text.ofNat failed), ("workers", Text.ofNat b.limit)]⟩

/-! ## Runs -/

/-- Deals with what the templates in some files gave. -/
def conclude (p : Project) (mode : Mode) (t : FileTree) (files : List Text) (b : Batch)
    (compiled : Compilation) : RunResult :=
  let journal := p.ownerRecords b.templates ++ compiled.reports ++
    [compiledRecord b compiled.outcomes]
  match p.settleAll mode { tree := t, journal } (files.zip compiled.outcomes) with
  | (s, some reason) => { tree := s.tree, journal := s.journal, failure := some reason }
  | (s, none) =>
    let count := Text.ofNat files.length
    let failed := Text.ofNat s.failed
    let s := s.note [⟨.info, "done", [("templates", count), ("failed", failed)]⟩]
    { tree := s.tree, journal := s.journal,
      failure := if s.failed == 0 then none
                 else some (failed ++ " of " ++ count ++ " templates failed") }

/-- Runs a project with some workers; `compile` is how it goes when they compile a batch. Without
templates there is nothing to do. -/
def runWith (p : Project) (workers : Nat) (compile : Batch → Compilation) (mode : Mode)
    (t : FileTree) : RunResult :=
  match p.templates t with
  | .error reason => { tree := t, failure := some reason }
  | .ok [] =>
    { tree := t, journal := [⟨.warning, "no templates found",
        [("root", p.root), ("suffix", p.settings.templateSuffix)]⟩] }
  | .ok files =>
    match files.mapM (p.template t) with
    | .error reason => { tree := t, failure := some reason }
    | .ok templates =>
      let b : Batch := ⟨p.catalog, p.settings, workers, templates⟩
      p.conclude mode t files b (compile b)

/-- Runs a project, one template after the other; `used` numbers were handed out before. -/
def runAfter (p : Project) (used : Nat) (mode : Mode) (t : FileTree) : RunResult :=
  p.runWith (p.settings.workers.getD 1) (compileInTurn used) mode t

/-- Runs a project. -/
def run (p : Project) (mode : Mode) (t : FileTree) : RunResult := p.runAfter 0 mode t

end Project

end ViewBinder
