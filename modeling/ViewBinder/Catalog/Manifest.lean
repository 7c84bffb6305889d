-- Manifests: the types of one package, written down with keys for the types they refer to. All
-- types of a manifest are added first and linked second, so they may refer to each other in any
-- order. What was added before an error stays.
import ViewBinder.Catalog.Basic
import ViewBinder.Path

namespace ViewBinder

/-- A parameter with the key of its type. -/
structure ParamSpec where
  name : Text := []
  type : Text := []
  deriving Repr

/-- A method with the keys of its types. -/
structure MethodSpec where
  name : Text := []
  params : List ParamSpec := []
  returns : Text := []
  deriving Repr

/-- A field of an owner with the key of its type. -/
structure UiFieldSpec where
  name : Text := []
  type : Text := []
  provided : Bool := false
  deriving Repr

/-- What a type declares about its use in templates. -/
structure TraitsSpec where
  renderable : Bool := false
  childTags : List ChildTag := []
  constructor : Text := []
  constructorParams : List Text := []
  uiFields : List UiFieldSpec := []
  factories : List Text := []
  handlers : List Handler := []
  deriving Repr

/-- A type with the keys of the types it refers to; no key means no type. -/
structure TypeSpec where
  name : Text := []
  kind : Text := []
  super : Text := []
  interfaces : List Text := []
  methods : List MethodSpec := []
  constructors : List MethodSpec := []
  constants : List EnumConstant := []
  traits : TraitsSpec := {}
  deriving Repr

/-- The types of one package. -/
structure Manifest where
  package : Text := []
  /-- How programs qualify the package; by default the last element of its path. -/
  name : Text := []
  types : List TypeSpec := []
  /-- Types of HTML tags. -/
  domTags : List (Text × Text) := []
  deriving Repr

/-- The kinds a manifest can declare. -/
def manifestKind? (kind : Text) : Option TypeKind :=
  if kind == "class" then some .object
  else if kind == "interface" then some .interface
  else if kind == "enum" then some .enumeration
  else none

namespace Catalog

/-- The type with a key, or none for the empty key; an error is told with its context. -/
def resolveIn (wrap : CatalogError → CatalogError) (key : Text) :
    Work Catalog (Option TypeId) := do
  if key.isEmpty then return none
  match (← get).base.resolve key with
  | .ok t => return some t
  | .error e => throw (wrap e).failure

/-- The method of a specification. -/
def linkMethod (owner : TypeId) (m : MethodSpec) : Work Catalog Method := do
  let type := ((← get).decl owner).name
  let params ← m.params.mapM fun p => do
    return Param.mk p.name (← resolveIn (.inMember type m.name) p.type)
  let returns ← resolveIn (.inMember type m.name) m.returns
  return ⟨m.name, params, returns, some owner⟩

/-- Links one type that was added before. -/
def linkType (t : TypeId) (spec : TypeSpec) : Work Catalog Unit := do
  let super ← resolveIn (.inType spec.name) spec.super
  modify (·.change t ({ · with super }))
  for key in spec.interfaces do
    let interface ← resolveIn (.inType spec.name) key
    modify (·.change t fun d => { d with interfaces := d.interfaces ++ [interface] })
  for m in spec.methods do
    let method ← linkMethod t m
    modify (·.change t fun d => { d with methods := d.methods ++ [method] })
  for m in spec.constructors do
    let method ← linkMethod t m
    let constructor := { method with returns := some t }
    modify (·.change t fun d => { d with constructors := d.constructors ++ [constructor] })
  let traits : Traits :=
    { renderable := spec.traits.renderable, childTags := spec.traits.childTags,
      constructor := spec.traits.constructor, constructorParams := spec.traits.constructorParams,
      factories := spec.traits.factories, handlers := spec.traits.handlers }
  modify (·.change t ({ · with traits }))
  for f in spec.traits.uiFields do
    let type ← resolveIn (.inUiField spec.name f.name) f.type
    modify (·.change t fun d =>
      { d with traits.uiFields := d.traits.uiFields ++ [⟨f.name, type, f.provided⟩] })

/-- Adds one type of a package, not linked yet. -/
def addType (package packageName : Text) (spec : TypeSpec) : Work Catalog TypeId := do
  match manifestKind? spec.kind with
  | none => throw (CatalogError.unknownKind spec.name spec.kind).failure
  | some kind =>
    register { package, packageName, name := spec.name, kind, constants := spec.constants }

/-- Adds all types of a manifest. -/
def load (m : Manifest) : Work Catalog Unit := do
  if m.package.isEmpty then throw CatalogError.noPackage.failure
  let packageName := if m.name.isEmpty then Path.base m.package else m.name
  let ids ← m.types.mapM (addType m.package packageName)
  for (t, spec) in ids.zip m.types do
    linkType t spec
  for (tag, key) in m.domTags do
    let t ← resolveIn (.inTag tag) key
    modify (·.setDomTag tag t)

/-- The catalog with a manifest loaded as far as it goes. -/
def loading (c : Catalog) (m : Manifest) : Catalog := ((load m).runOn c).2

end Catalog

end ViewBinder
