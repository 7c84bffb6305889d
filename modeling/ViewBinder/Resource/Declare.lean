-- Declaring resources: a resource of a template becomes a method of the bundle of its draft. A
-- method that was claimed stays claimed, also when the resource turns out to be unusable.
import ViewBinder.Draft
import ViewBinder.Library

namespace ViewBinder.Draft

/-- A type of the resource library; one that the catalog lacks is made up as an interface. -/
def resourceType (name : Text) : Work Draft TypeId :=
  modifyGet fun d =>
    match d.catalog.find? Library.resourcesPackage name with
    | some t => (t, d)
    | none =>
      let (t, catalog) := d.catalog.push
        { package := Library.resourcesPackage, packageName := Path.base Library.resourcesPackage,
          name, kind := .interface }
      (t, { d with catalog })

/-- Begins the bundle of a program: its type is in the catalog but nobody can name it. -/
def openBundle (b : Bundle) : Work Draft Unit :=
  modify fun d =>
    let (t, catalog) := d.catalog.push
      { package := b.package, packageName := b.packageName, name := b.name, kind := .object }
    { d with catalog, bundle := { b with type := some t } }

/-- Adds a method without parameters to the generated type of the bundle. -/
def addBundleMethod (name : Text) (returns : TypeId) : Work Draft Unit :=
  modify fun d =>
    match d.bundle.type with
    | some t =>
      let method : Method := { name, params := [], returns := some returns, owner := some t }
      { d with catalog := d.catalog.change t fun decl =>
          { decl with methods := decl.methods ++ [method] } }
    | none => d

/-- Takes a method of the bundle for a field. -/
def claimMethod (place : Option Location) (field : Text) : Work Draft Text := do
  let (method, bundle) ← orFailAt place ((← get).bundle.claim field)
  modify ({ · with bundle })
  return method

/-- The type generated for a style, with a method for each class. -/
def generateStyleType (field : Text) (interfaces : List TypeId) (classes : List StyleClass) :
    Work Draft TypeId :=
  modifyGet fun d =>
    let text := d.catalog.find? [] "string"
    let id := d.catalog.types.size
    let accessor (name : Text) (returns : Option TypeId) : Method :=
      { name, params := [], returns, owner := some id }
    let (id, catalog) := d.catalog.push
      { package := d.bundle.package, packageName := d.bundle.packageName,
        name := d.bundle.styleTypeName field, kind := .object,
        interfaces := interfaces.map some,
        methods := accessor "EnsureInjected" (d.catalog.find? [] "bool") :: accessor "Text" text ::
          classes.map fun c => accessor c.accessor text }
    (id, { d with catalog })

/-- Declares a style and gives the type of its field and the method of the bundle. -/
def declareStyle (place : Option Location) (s : Style) : Work Draft (TypeId × Text) := do
  let method ← claimMethod place s.field
  let b := (← get).bundle
  let sheet := Stylesheet.parse (← orFailAt place (b.styleText s))
  let classes ← orFailAt place
    (Bundle.bundleClasses (b.classLead s.field) s.field [] sheet.classes)
  let resource ← resourceType "CssResource"
  match s.type with
  | some t => orFailAt place (Bundle.checkStyleType (← get).catalog s.field classes t)
  | none => pure ()
  let type ← generateStyleType s.field (resource :: s.type.toList) classes
  modify fun d =>
    { d with bundle.styles := d.bundle.styles ++ [⟨s, method, sheet, classes, type⟩] }
  let fieldType := s.type.getD type
  addBundleMethod method fieldType
  return (fieldType, method)

/-- Adds an image or data file of a library type to the bundle. -/
def addFile (typeName method expr : Text) : Work Draft Unit := do
  let type ← resourceType typeName
  let ref ← typeRef type
  modify fun d => { d with bundle.others := d.bundle.others ++ [⟨method, ref, expr⟩] }
  addBundleMethod method type

/-- Declares an image and gives the method of the bundle. -/
def declareImage (place : Option Location) (i : Image) : Work Draft Text := do
  let source ← orFailAt place ((← get).bundle.imageSource i)
  let repetition ← orFailAt place (Bundle.repetitionOf i)
  let method ← claimMethod place i.field
  let content ← orFailAt place ((← get).bundle.read source)
  let header ← orFailAt place (Bundle.imageHeader source content)
  let package ← importPackage Library.resourcesPackage "resources"
  addFile "ImageResource" method (Bundle.imageExpr package i repetition header content)
  return method

/-- Declares a data file and gives the method of the bundle. -/
def declareData (place : Option Location) (f : DataFile) : Work Draft Text := do
  if f.source.isEmpty then failAt place (.noDataSource f.field)
  let method ← claimMethod place f.field
  let content ← orFailAt place ((← get).bundle.read f.source)
  let package ← importPackage Library.resourcesPackage "resources"
  addFile "DataResource" method (Bundle.dataExpr package f content)
  return method

/-- Makes the generated types of the styles known. -/
def adoptStyleTypes : Work Draft Unit := do
  for s in (← get).bundle.styles do
    match (← get).catalog.adopt s.type with
    | .ok catalog => modify ({ · with catalog })
    | .error e => failAt none (.generatedTypeClash e.message)

/-- The bundle as the program declares it; nothing without resources. -/
def bundleDeclarations : Work Draft (List Text) := do
  let b := (← get).bundle
  if b.size == 0 then return []
  let styles ← b.styles.mapM fun s => do
    let generated ← typeRef s.type
    let result ← match s.style.type with
      | some t => typeRef t
      | none => pure generated
    let name := ((← get).catalog.decl s.type).name
    return Bundle.renderMethod b.name s.method result ("&" ++ name ++ "\x7b\x7d")
  let files := b.others.map fun f => Bundle.renderMethod b.name f.method f.typeRef f.expr
  let types ← b.styles.mapM fun s => do
    let package ← importPackage Library.resourcesPackage "resources"
    return Bundle.renderStyle package ((← get).catalog.decl s.type).name s
  return ("type " ++ b.name ++ " struct\x7b\x7d") :: (styles ++ files ++ types.flatten)

end ViewBinder.Draft
