-- Projects: a directory of templates with the settings that compile them. Opening a project reads
-- its settings, the manifests they name and the packages they name; then its templates are found
-- below its root.
import ViewBinder.Catalog.ManifestFile
import ViewBinder.Compile
import ViewBinder.Library
import ViewBinder.Path
import ViewBinder.Settings

namespace ViewBinder

/-- A directory of templates and what compiling them needs to know. -/
structure Project where
  root : Text
  settings : Settings := {}
  included : List Text := []
  excluded : List Text := []
  catalog : Catalog := Library.catalog

namespace Project

/-! ## Opening -/

/-- What the settings file at a path says. Without a file the answer is nothing, but only if the
path was not asked for. `here` is where relative paths start. -/
def readSettings (t : FileTree) (here path : Text) (asked : Bool) :
    Except Text (Option SettingsFile) :=
  match t.read path with
  | .error o =>
    if o == .missing && !asked then .ok none
    else .error ("failed to read config: " ++ FileTree.readFailure (Path.absolute here path) o)
  | .ok content =>
    match SettingsFile.parse content with
    | .error reason => .error ("failed to parse config " ++ path ++ ": " ++ reason)
    | .ok file => .ok (some file)

/-- The manifest in the file at a path. -/
def readManifest (t : FileTree) (here path : Text) : Except Text Manifest :=
  match t.read path with
  | .error o =>
    .error ("failed to read manifest: " ++ FileTree.readFailure (Path.absolute here path) o)
  | .ok content =>
    (Manifest.parse content).mapError fun reason =>
      "failed to parse manifest " ++ path ++ ": " ++ reason

/-- The catalog with the types of the manifest at a path. -/
def addManifest (t : FileTree) (here : Text) (c : Catalog) (path : Text) : Except Text Catalog := do
  let m ← readManifest t here path
  let (answer, c) := (Catalog.load m).runOn c
  match answer with
  | .ok () => return c
  | .error failure => throw ("manifest " ++ path ++ ": " ++ failure.text)

/-- The library with the types of some manifests. -/
def catalogOf (t : FileTree) (here : Text) (manifests : List Text) : Except Text Catalog :=
  manifests.foldlM (addManifest t here) Library.catalog

/-- How the types of packages are loaded from their sources: from the files there are, the directory to
start in, the packages and the catalog so far, the catalog with their types. It takes a compiler to
read sources, so the loader is handed in. -/
abbrev SourceLoader := FileTree → Text → List Text → Catalog → Except Text Catalog

/-- Where nothing can compile sources, no package is loaded. -/
def noSources : SourceLoader := fun _ _ _ _ =>
  .error "failed to load packages: there is nothing to load them with"

/-- The catalog with the types of the packages that the settings name, if they name any. -/
def addSources (load : SourceLoader) (t : FileTree) (root : Text) (packages : List Text)
    (c : Catalog) : Except Text Catalog :=
  if packages.isEmpty then .ok c else load t root packages c

/-- Where the settings of a project are, if no other file is given. -/
def settingsPath (root given : Text) : Text :=
  if given.isEmpty then Path.join [root, SettingsFile.defaultName] else given

/-- The project in a directory. Its settings are in the file given, or else in the directory. -/
def ofDirectory (load : SourceLoader) (t : FileTree) (here root given : Text) :
    Except Text Project := do
  let path := settingsPath root given
  let file? ← readSettings t here path (!given.isEmpty)
  let file := file?.getD {}
  let settings := file.apply (SettingsFile.projectRoot path) {}
  let declared ← catalogOf t here settings.manifests
  let catalog ← addSources load t root settings.sourcePackages declared
  return { root, settings, included := file.included, excluded := file.excluded, catalog }

/-! ## Templates -/

/-- A directory whose templates do not count. -/
def isHidden (directory : Text) : Bool :=
  Text.startsWith directory "." || directory == "testdata"

/-- Element by element order of paths; a directory stands where its name does. -/
def elementsBefore : List Text → List Text → Bool
  | [], [] => false
  | [], _ :: _ => true
  | _ :: _, [] => false
  | a :: as, b :: bs => Text.before a b || (a == b && elementsBefore as bs)

/-- The paths in the order in which a walk through the directories meets them. -/
def walkOrder (paths : List Text) : List Text :=
  sortBy (fun a b => !elementsBefore (Path.elements b) (Path.elements a)) paths

/-- Some pattern matches the path or its last element. -/
def anyMatch (patterns : List Text) (path : Text) : Bool :=
  patterns.any fun p => Path.Glob.matchesName p path || Path.Glob.matchesName p (Path.base path)

/-- The patterns of the project let a path through. -/
def selects (p : Project) (path : Text) : Bool :=
  (p.included.isEmpty || anyMatch p.included path) && !anyMatch p.excluded path

/-- The templates of the project in the order of a walk, or why there can be none. -/
def templates (p : Project) (t : FileTree) : Except Text (List Text) :=
  let counts (file path : Text) : Bool :=
    Text.endsWith file p.settings.templateSuffix && p.selects path
  match if p.root.isEmpty then .nothing else t.lookup (Path.clean p.root) with
  | .file _ => .ok (if counts p.root "." then [p.root] else [])
  | .directory =>
    let below := walkOrder (t.filesBelow (Path.clean p.root))
    let visible := below.filter fun path => !(Path.elements path).dropLast.any isHidden
    .ok (visible.filterMap fun path =>
      let file := Path.join [p.root, path]
      if counts file path then some file else none)
  | .behindFile => .error ("lstat " ++ p.root ++ ": " ++ Obstacle.notDirectory.message)
  | .nothing => .error ("lstat " ++ p.root ++ ": " ++ Obstacle.missing.message)

/-- The name of the type a template is bound to, if there is such a type. -/
def ownerName (p : Project) (file : Text) : Text :=
  Text.exported (Text.sanitize (Text.dropBack (Path.base file) p.settings.templateSuffix)) ++
    p.settings.ownerSuffix

/-- The template in a file. The files it refers to stand beside it. -/
def template (p : Project) (t : FileTree) (file : Text) : Except Text Template :=
  match t.read file with
  | .error o => .error ("failed to read template: " ++ FileTree.readFailure file o)
  | .ok source =>
    .ok { source, url := file,
          owner := p.catalog.find? p.settings.packagePath (p.ownerName file),
          binderName := Program.binderNameOf file p.settings.templateSuffix,
          files := some { tree := t, base := Path.directory file, storage := .disk } }

/-- Where the program of a template is written. -/
def outputPath (p : Project) (file : Text) : Text :=
  Text.dropBack file p.settings.templateSuffix ++ p.settings.outputSuffix

end Project

end ViewBinder
