-- Directives: the binder elements below the root of a template. Each declares fields before the
-- user interface is read, so that references find them wherever they stand.
import ViewBinder.Element.Build

namespace ViewBinder.Directive

open Markup (Document)
open Session

/-- A field of a directive, whose name must be free. -/
def declareField (e : Nat) (precedence : Precedence) (type : TypeId) (name : Text) :
    Work Session FieldId := do
  if !Element.isFieldName name then failOn e fun d => .illegalFieldName name (d.tag e)
  let s ← get
  match s.fields.find? name with
  | some old =>
    let first := s.catalog.key (s.fields.field old).type
    failOn e fun _ => .duplicateField name first (s.catalog.key type)
  | none => Draft.register precedence type name

/-- The type a directive names. -/
def resolveType (e : Nat) (name : Text) (problem : Text → Text → Problem) :
    Work Session TypeId := do
  match (← getCatalog).lookup? name with
  | some t => return t
  | none => failOn e fun d => problem name (d.tag e)

/-! ## Values and constants -/

/-- The element that holds the attributes of a value: the directive itself, or its only child. -/
def attributesElement (e : Nat) (found : Option Nat) : List Nat → Work Session Nat
  | [] => return found.getD e
  | child :: rest => do
    if !(← getDocument).isBinderTag child "attributes" || found.isSome then
      failOn child fun d => .notSingleAttributes (d.tag child) (d.tag e)
    attributesElement e (some child) rest

/-- Declares a value of any type: provided by the owner, or made from attributes. -/
def withValue (e : Nat) : Work Session Unit := do
  let name ← Document.takeRequired e "field"
  let typeName ← Document.takeRequired e "type"
  let type ← resolveType e typeName .unknownType
  let f ← declareField e .imported type name
  Element.provide f name
  let target ← attributesElement e none (← Document.takeChildren e)
  Element.inside e f (Element.properties target f type)
  Document.assertNoAttributes target

/-- The type and the constant of an import, separated by the last dot. -/
def importParts? (spec : Text) : Option (Text × Text) :=
  match spec.lastIndexOf? '.'.toUInt8 with
  | some i =>
    if i == 0 || i + 1 == spec.length then none else some (spec.take i, spec.drop (i + 1))
  | none => none

/-- Declares constants of an enumeration as fields: one, or all of them. -/
def importConstants (e : Nat) : Work Session Unit := do
  let spec ← Document.takeRequired e "field"
  match importParts? spec with
  | none => failOn e fun d => .notImportable spec (d.tag e)
  | some (typeName, constant) =>
    let type ← resolveType e typeName .unknownType
    let decl := (← getCatalog).decl type
    if decl.constants.isEmpty then failOn e fun d => .noConstants decl.name (d.tag e)
    let wanted := decl.constants.filter fun k => constant == "*" || k.name == constant
    for k in wanted do
      let f ← declareField e .imported type k.name
      Draft.setInitializer f (← Draft.qualify type k.ident)
    if wanted.isEmpty then failOn e fun d => .noConstant decl.name constant (d.tag e)

/-! ## Resources -/

/-- Declares a style: its own text and the files it names. -/
def style (e : Nat) : Work Session Unit := do
  let name ← Document.takeDefault e "field" "style"
  let sources ← Document.takeDefault e "src" []
  let typeName ← Document.takeDefault e "type" []
  let css ← Document.takePlainText e
  let s ← get
  match s.fields.find? name with
  | some old =>
    failOn e fun _ => .duplicateStyleField name (s.catalog.key (s.fields.field old).type)
  | none => pure ()
  let declared ← if typeName.isEmpty then pure none
    else some <$> resolveType e typeName .unknownStyleType
  let bundle ← resourceBundle
  let (type, method) ← Draft.declareStyle ((← getDocument).location e)
    { field := name, sources := sources.words, type := declared, css }
  let f ← declareField e .style type name
  Draft.addNeed f bundle
  Draft.setInitializer f (bundle ++ "." ++ method ++ "()")
  call f "EnsureInjected" []

/-- Declares a resource of a library type: `declare` gives the method of the bundle. -/
def resource (e : Nat) (name typeName : Text) (declare : Work Draft Text) : Work Session Unit := do
  let s ← get
  match s.catalog.find? Library.resourcesPackage typeName with
  | none => failOn e fun d => .needsType (d.tag e) (Library.resources typeName)
  | some type =>
    match s.fields.find? name with
    | some old =>
      let first := s.catalog.key (s.fields.field old).type
      failOn e fun _ => .duplicateField name first (s.catalog.key type)
    | none => pure ()
    let bundle ← resourceBundle
    let method ← declare
    let f ← declareField e .imported type name
    Draft.addNeed f bundle
    Draft.setInitializer f (bundle ++ "." ++ method ++ "()")

/-- Declares an image. -/
def image (e : Nat) : Work Session Unit := do
  let field ← Document.takeRequired e "field"
  let flip ← Document.takeBoolean e "flipRtl" false
  let source ← Document.takeDefault e "src" []
  let repetition ← Document.takeDefault e "repeatStyle" []
  let place := (← getDocument).location e
  resource e field "ImageResource" (Draft.declareImage place { field, source, flip, repetition })

/-- Declares a data file. -/
def data (e : Nat) : Work Session Unit := do
  let field ← Document.takeRequired e "field"
  let source ← Document.takeRequired e "src"
  let mediaType ← Document.takeDefault e "mimeType" []
  let place := (← getDocument).location e
  resource e field "DataResource" (Draft.declareData place { field, source, mediaType })

/-! ## All of them -/

/-- Follows a directive. -/
def follow (e : Nat) : Work Session Unit := do
  let base := ((← getDocument).name e).base
  if base == "with" then withValue e
  else if base == "import" then importConstants e
  else if base == "style" then style e
  else if base == "image" then image e
  else if base == "data" then data e
  else failOn e fun d => .unknownDirective (d.tag e)
  Element.nothingLeft e

/-- Follows the directives in order; the types generated for styles are known from then on. -/
def followAll (directives : List Nat) : Work Session Unit := do
  directives.forM follow
  Draft.adoptStyleTypes

end ViewBinder.Directive
