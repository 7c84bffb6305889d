-- Manifests as they are written in files: JSON objects with the members of `Manifest`. Each record
-- is read over an earlier one, which is empty unless a member is repeated.
import ViewBinder.Catalog.Manifest
import ViewBinder.Json.Decode

namespace ViewBinder

open Json (Value Mismatch Member text boolean integer texts)

/-- How messages name the records of manifest files. -/
def manifestType (name : Text) : Text := "typeoracle." ++ name

/-- A record in a manifest file. -/
def manifestRecord {σ : Type} (name : Text) (members : List (Member σ)) (start : σ) :
    Value → Except Mismatch σ :=
  Json.record (manifestType name) members start

/-- A list of records in a manifest file. -/
def manifestList {α : Type} (name : Text) (fresh : α) (item : α → Value → Except Mismatch α)
    (old : List α) : Value → Except Mismatch (List α) :=
  Json.list (manifestType name) fresh item old

/-- A parameter in a manifest file. -/
def ParamSpec.ofJson (old : ParamSpec) : Value → Except Mismatch ParamSpec :=
  manifestRecord "ManifestParam" [
    ⟨"name", fun p v => return { p with name := ← text p.name v }⟩,
    ⟨"type", fun p v => return { p with type := ← text p.type v }⟩] old

/-- A method in a manifest file. -/
def MethodSpec.ofJson (old : MethodSpec) : Value → Except Mismatch MethodSpec :=
  manifestRecord "ManifestMethod" [
    ⟨"name", fun m v => return { m with name := ← text m.name v }⟩,
    ⟨"params", fun m v => do
      let params ← manifestList "ManifestParam" {} ParamSpec.ofJson m.params v
      return { m with params }⟩,
    ⟨"returns", fun m v => return { m with returns := ← text m.returns v }⟩] old

/-- A field of an owner in a manifest file. -/
def UiFieldSpec.ofJson (old : UiFieldSpec) : Value → Except Mismatch UiFieldSpec :=
  manifestRecord "ManifestUiField" [
    ⟨"name", fun f v => return { f with name := ← text f.name v }⟩,
    ⟨"type", fun f v => return { f with type := ← text f.type v }⟩,
    ⟨"provided", fun f v => return { f with provided := ← boolean f.provided v }⟩] old

/-- A constant of an enumeration in a manifest file. -/
def EnumConstant.ofJson (old : EnumConstant) : Value → Except Mismatch EnumConstant :=
  manifestRecord "EnumConstant" [
    ⟨"name", fun e v => return { e with name := ← text e.name v }⟩,
    ⟨"ident", fun e v => return { e with ident := ← text e.ident v }⟩] old

/-- A child tag in a manifest file. -/
def ChildTag.ofJson (old : ChildTag) : Value → Except Mismatch ChildTag :=
  manifestRecord "ChildTag" [
    ⟨"tag", fun t v => return { t with tag := ← text t.tag v }⟩,
    ⟨"method", fun t v => return { t with method := ← text t.method v }⟩,
    ⟨"limit", fun t v => return { t with limit := ← integer t.limit v }⟩] old

/-- An event handler in a manifest file. -/
def Handler.ofJson (old : Handler) : Value → Except Mismatch Handler :=
  manifestRecord "Handler" [
    ⟨"method", fun h v => return { h with method := ← text h.method v }⟩,
    ⟨"event", fun h v => return { h with event := ← text h.event v }⟩,
    ⟨"fields", fun h v => return { h with fields := ← texts h.fields v }⟩] old

/-- The traits of a type in a manifest file, put over earlier ones. -/
def TraitsSpec.ofJson (old : TraitsSpec) : Value → Except Mismatch TraitsSpec :=
  manifestRecord "ManifestMarkers" [
    ⟨"renderable", fun t v => return { t with renderable := ← boolean t.renderable v }⟩,
    ⟨"childTags", fun t v => do
      let childTags ← manifestList "ChildTag" ⟨[], [], 0⟩ ChildTag.ofJson t.childTags v
      return { t with childTags }⟩,
    ⟨"constructor", fun t v => return { t with constructor := ← text t.constructor v }⟩,
    ⟨"constructorParams", fun t v => do
      return { t with constructorParams := ← texts t.constructorParams v }⟩,
    ⟨"uiFields", fun t v => do
      let uiFields ← manifestList "ManifestUiField" {} UiFieldSpec.ofJson t.uiFields v
      return { t with uiFields }⟩,
    ⟨"factories", fun t v => return { t with factories := ← texts t.factories v }⟩,
    ⟨"handlers", fun t v => do
      let handlers ← manifestList "Handler" ⟨[], [], []⟩ Handler.ofJson t.handlers v
      return { t with handlers }⟩] old

/-- A type in a manifest file. -/
def TypeSpec.ofJson (old : TypeSpec) : Value → Except Mismatch TypeSpec :=
  manifestRecord "ManifestType" [
    ⟨"name", fun t v => return { t with name := ← text t.name v }⟩,
    ⟨"kind", fun t v => return { t with kind := ← text t.kind v }⟩,
    ⟨"super", fun t v => return { t with super := ← text t.super v }⟩,
    ⟨"interfaces", fun t v => return { t with interfaces := ← texts t.interfaces v }⟩,
    ⟨"methods", fun t v => do
      let methods ← manifestList "ManifestMethod" {} MethodSpec.ofJson t.methods v
      return { t with methods }⟩,
    ⟨"constructors", fun t v => do
      let constructors ← manifestList "ManifestMethod" {} MethodSpec.ofJson t.constructors v
      return { t with constructors }⟩,
    ⟨"enumConstants", fun t v => do
      let constants ← manifestList "EnumConstant" ⟨[], []⟩ EnumConstant.ofJson t.constants v
      return { t with constants }⟩,
    ⟨"markers", fun t v => return { t with traits := ← TraitsSpec.ofJson t.traits v }⟩] old

/-- A manifest file as a value. -/
def Manifest.ofJson : Value → Except Mismatch Manifest :=
  manifestRecord "Manifest" [
    ⟨"package", fun m v => return { m with package := ← text m.package v }⟩,
    ⟨"name", fun m v => return { m with name := ← text m.name v }⟩,
    ⟨"types", fun m v => do
      let types ← manifestList "ManifestType" {} TypeSpec.ofJson m.types v
      return { m with types }⟩,
    ⟨"domTags", fun m v => return { m with domTags := ← Json.textMap m.domTags v }⟩] {}

/-- The manifest that a file holds, or why it holds none. -/
def Manifest.parse (file : Text) : Except Text Manifest :=
  match Json.parse file with
  | .error fault => .error fault.message
  | .ok value =>
    match ofJson value with
    | .error m => .error m.message
    | .ok manifest => .ok manifest

end ViewBinder
