-- Settings of a compilation: the package of the generated programs, how templates, programs and
-- owners are named, and what types there are beside the library. A settings file is a JSON object
-- whose members replace the settings a project starts with, and it says which templates of the
-- project count. What a file does not say stays as it was.
import ViewBinder.Json.Decode
import ViewBinder.Path

namespace ViewBinder

open Json (Value Mismatch text boolean integer texts)

/-- The settings of a compilation. -/
structure Settings where
  /-- Import path of the generated programs. -/
  packagePath : Text := "main"
  package : Text := "main"
  /-- Programs are written in the standard layout. -/
  format : Bool := true
  /-- How many templates are compiled at once; not said means as the machine allows. -/
  workers : Option Nat := none
  templateSuffix : Text := ".ui.xml"
  outputSuffix : Text := "_uibind.go"
  /-- What the name of an owner ends with. -/
  ownerSuffix : Text := []
  /-- Files that declare types. -/
  manifests : List Text := []
  /-- Packages whose types are declared by their sources. -/
  sourcePackages : List Text := []
  deriving DecidableEq, Repr

namespace Settings

/-- The settings for a package; without a name it is named after its path. -/
def withPackage (s : Settings) (path name : Text) : Settings :=
  { s with packagePath := path, package := if name.isEmpty then Path.base path else name }

/-- The settings with other suffixes; empty ones keep what was set. -/
def withSuffixes (s : Settings) (template output owner : Text) : Settings :=
  { s with templateSuffix := if template.isEmpty then s.templateSuffix else template,
           outputSuffix := if output.isEmpty then s.outputSuffix else output,
           ownerSuffix := if owner.isEmpty then s.ownerSuffix else owner }

end Settings

/-! ## Settings files -/

/-- The package of the generated programs in a settings file. -/
structure PackageSpec where
  path : Text := []
  name : Text := []
  deriving DecidableEq, Repr

/-- What a settings file says. -/
structure SettingsFile where
  package : PackageSpec := {}
  format : Option Bool := none
  workers : Int := 0
  templateSuffix : Text := []
  outputSuffix : Text := []
  ownerSuffix : Text := []
  manifests : List Text := []
  sourcePackages : List Text := []
  /-- Patterns of the templates to compile; none means all of them. -/
  included : List Text := []
  /-- Patterns of the templates to leave out. -/
  excluded : List Text := []
  deriving DecidableEq, Repr

/-- The package in a settings file, put over an earlier one. -/
def PackageSpec.ofJson (old : PackageSpec) : Value → Except Mismatch PackageSpec :=
  Json.record "config.FilePackage" [
    ⟨"path", fun p v => return { p with path := ← text p.path v }⟩,
    ⟨"name", fun p v => return { p with name := ← text p.name v }⟩] old

namespace SettingsFile

/-- The name a settings file has unless another is given. -/
def defaultName : Text := "uibind.json"

/-- A truth value that may be missing. -/
def optionalBoolean : Value → Except Mismatch (Option Bool)
  | .null => .ok none
  | v => some <$> boolean false v

/-- A settings file as a value. -/
def ofJson : Value → Except Mismatch SettingsFile :=
  Json.record "config.File" [
    ⟨"package", fun f v => return { f with package := ← f.package.ofJson v }⟩,
    ⟨"format", fun f v => return { f with format := ← optionalBoolean v }⟩,
    ⟨"workers", fun f v => return { f with workers := ← integer f.workers v }⟩,
    ⟨"templateSuffix", fun f v => return { f with templateSuffix := ← text f.templateSuffix v }⟩,
    ⟨"outputSuffix", fun f v => return { f with outputSuffix := ← text f.outputSuffix v }⟩,
    ⟨"ownerSuffix", fun f v => return { f with ownerSuffix := ← text f.ownerSuffix v }⟩,
    ⟨"manifests", fun f v => return { f with manifests := ← texts f.manifests v }⟩,
    ⟨"goPackages", fun f v => return { f with sourcePackages := ← texts f.sourcePackages v }⟩,
    ⟨"include", fun f v => return { f with included := ← texts f.included v }⟩,
    ⟨"exclude", fun f v => return { f with excluded := ← texts f.excluded v }⟩] {}

/-- What a text says as a settings file, or why it is none. -/
def parse (content : Text) : Except Text SettingsFile :=
  match Json.parse content with
  | .error fault => .error fault.message
  | .ok value => (ofJson value).mapError (·.message)

/-- Where a manifest is that the file names: paths that are not absolute start at `root`. -/
def placeManifest (root manifest : Text) : Text :=
  if Path.isAbsolute manifest then manifest else Path.join [root, manifest]

/-- The settings with what the file says put over them. -/
def apply (f : SettingsFile) (root : Text) (s : Settings) : Settings :=
  let s := if f.package.path.isEmpty then s else s.withPackage f.package.path f.package.name
  let s := { s with format := f.format.getD s.format,
                    workers := if 0 < f.workers then some f.workers.toNat else s.workers }
  let s := s.withSuffixes f.templateSuffix f.outputSuffix f.ownerSuffix
  { s with manifests := s.manifests ++ f.manifests.map (placeManifest root),
           sourcePackages := s.sourcePackages ++ f.sourcePackages }

/-- The directory a settings file stands in. -/
def projectRoot (path : Text) : Text := Path.directory path

end SettingsFile

end ViewBinder
