-- The catalog of target types: what a template can build, set and refer to. Types stand in a table
-- and refer to each other by their number, so they may refer to each other in any order and in
-- circles. A unit can add generated types of its own, which hide nothing and are seen by nobody
-- else. The hierarchy of a type lists the type itself and everything above it, nearest first,
-- interfaces before the superclass, each once. Methods, setters and assignability follow it, so a
-- declaration nearer to the type hides the ones further up.
import ViewBinder.Diagnostic.Basic
import ViewBinder.Text.Name

namespace ViewBinder

/-- What a type is made of. -/
inductive TypeKind where
  | primitive
  /-- A reference to a primitive that may be missing. -/
  | boxed
  | object
  | interface
  | enumeration
  deriving DecidableEq, Repr

/-- The name of a kind. -/
def TypeKind.name : TypeKind → Text
  | primitive => "primitive"
  | boxed => "boxed"
  | object => "class"
  | interface => "interface"
  | enumeration => "enum"

/-- The kind with a numeric code. -/
def TypeKind.ofCode? (n : Int) : Option TypeKind :=
  if n == 1 then some primitive else if n == 2 then some boxed else if n == 3 then some object
  else if n == 4 then some interface else if n == 5 then some enumeration else none

/-- The number of a type in its catalog. -/
abbrev TypeId := Nat

/-- A parameter; its type may be left open. -/
structure Param where
  name : Text
  type : Option TypeId
  deriving DecidableEq, Repr

/-- A method, or a function that makes a value of its owner. -/
structure Method where
  name : Text
  params : List Param
  returns : Option TypeId
  owner : Option TypeId
  deriving DecidableEq, Repr

/-- A constant of an enumeration: how templates spell it and how the program does. -/
structure EnumConstant where
  name : Text
  ident : Text
  deriving DecidableEq, Repr

/-- A child element a type accepts, and the method that takes it. No limit is written zero. -/
structure ChildTag where
  tag : Text
  method : Text
  limit : Int
  deriving DecidableEq, Repr

/-- A field of an owner that is bound to a field of the template. A provided field is filled by the
owner; any other is filled for it. -/
structure UiField where
  name : Text
  type : Option TypeId
  provided : Bool
  deriving DecidableEq, Repr

/-- A method of an owner that handles an event of some fields. -/
structure Handler where
  method : Text
  event : Text
  fields : List Text
  deriving DecidableEq, Repr

/-- What a type declares about its use in templates. -/
structure Traits where
  /-- The type can be stamped into markup before it is attached. -/
  renderable : Bool := false
  childTags : List ChildTag := []
  /-- The constructor that attributes are passed to, and their names in order. -/
  constructor : Text := []
  constructorParams : List Text := []
  uiFields : List UiField := []
  /-- Methods of an owner that make fields. -/
  factories : List Text := []
  handlers : List Handler := []
  deriving DecidableEq, Repr

/-- A type of the target. -/
structure TypeDecl where
  /-- Import path; empty for primitives. -/
  package : Text
  /-- How the program qualifies the package. -/
  packageName : Text
  /-- Simple name; a nested type has dots in it. -/
  name : Text
  kind : TypeKind
  super : Option TypeId := none
  interfaces : List (Option TypeId) := []
  methods : List Method := []
  constructors : List Method := []
  constants : List EnumConstant := []
  /-- The primitive of a boxed type. -/
  unboxed : Option TypeId := none
  traits : Traits := {}
  deriving DecidableEq, Repr

/-- The name of a type in a package. -/
def keyOf (package name : Text) : Text :=
  if package.isEmpty then name else package ++ "." ++ name

namespace TypeDecl

/-- The full name of a type, which tells it from all others. -/
def key (t : TypeDecl) : Text := keyOf t.package t.name

/-- The name of a type inside its package. -/
def localName (t : TypeDecl) : Text := t.name.filter (· != '.'.toUInt8)

end TypeDecl

/-- The primitives. -/
def primitiveNames : List Text :=
  ["bool", "string", "int", "int8", "int16", "int32", "int64", "uint", "uint8", "uint16",
   "uint32", "uint64", "float32", "float64"]

/-- The primitives that are numbers. -/
def numericNames : List Text := primitiveNames.drop 2

/-- Why a type cannot be had or added. -/
inductive CatalogError where
  | unknownType (key : Text)
  | registeredTwice (key : Text)
  | generatedTwice (key : Text)
  | collides (key : Text)
  | unknownKind (name kind : Text)
  | noPackage
  | inType (name : Text) (cause : CatalogError)
  | inMember (type member : Text) (cause : CatalogError)
  | inUiField (type field : Text) (cause : CatalogError)
  | inTag (tag : Text) (cause : CatalogError)
  deriving Repr

/-- The wording of an error. -/
def CatalogError.message : CatalogError → Text
  | unknownType key => "unknown type " ++ key
  | registeredTwice key => "type " ++ key ++ " registered twice"
  | generatedTwice key => "type " ++ key ++ " generated twice"
  | collides key => "generated type " ++ key ++ " collides with an existing type"
  | unknownKind name kind => "type " ++ name ++ ": unknown kind " ++ Text.quote kind
  | noPackage => "manifest has no package"
  | inType name cause => "type " ++ name ++ ": " ++ cause.message
  | inMember type member cause => type ++ "." ++ member ++ ": " ++ cause.message
  | inUiField type field cause => "type " ++ type ++ ": ui field " ++ field ++ ": " ++ cause.message
  | inTag tag cause => "dom tag " ++ tag ++ ": " ++ cause.message

/-- The error as a failure without a place. -/
def CatalogError.failure (e : CatalogError) : Failure := .plain e.message

/-- All known types. -/
structure Catalog where
  types : Array TypeDecl := #[]
  /-- Types everybody sees, by key. -/
  shared : List (Text × TypeId) := []
  /-- Types made for one unit, by key. -/
  generated : List (Text × TypeId) := []
  /-- Types of HTML tags, in lower case; of two entries the first counts. -/
  domTags : List (Text × Option TypeId) := []
  /-- The type of all other HTML tags. -/
  domOther : Option TypeId := none

namespace Catalog

/-! ## Looking types up -/

/-- A declaration that stands for a number outside the table. -/
def noType : TypeDecl := { package := [], packageName := [], name := [], kind := .object }

/-- The declaration of a type. -/
def decl (c : Catalog) (t : TypeId) : TypeDecl := c.types[t]?.getD noType

/-- The key of a type that may be missing. -/
def key (c : Catalog) : Option TypeId → Text
  | some t => (c.decl t).key
  | none => "<nil>"

/-- The simple name of a type that may be missing. -/
def simpleName (c : Catalog) : Option TypeId → Text
  | some t => (c.decl t).name
  | none => "<nil>"

/-- The type with a key; generated types are found first. -/
def lookup? (c : Catalog) (key : Text) : Option TypeId :=
  c.generated.lookup key <|> c.shared.lookup key

/-- The type of a name in a package. -/
def find? (c : Catalog) (package name : Text) : Option TypeId := c.lookup? (keyOf package name)

/-- The type with a key, which must be there. -/
def resolve (c : Catalog) (key : Text) : Except CatalogError TypeId :=
  match c.lookup? key with
  | some t => .ok t
  | none => .error (.unknownType key)

/-- The catalog without the generated types. -/
def base (c : Catalog) : Catalog := { c with generated := [] }

/-- The types everybody sees, in the order of their keys. -/
def sharedTypes (c : Catalog) : List TypeId := (Text.sortedBy (·.1) c.shared).map (·.2)

/-- The type of an HTML tag. -/
def domType? (c : Catalog) (tag : Text) : Option TypeId :=
  match c.domTags.lookup (Text.toLower tag) with
  | some t => t
  | none => c.domOther

/-! ## Adding types -/

/-- The table with one more declaration, and its number. -/
def push (c : Catalog) (t : TypeDecl) : TypeId × Catalog :=
  (c.types.size, { c with types := c.types.push t })

/-- The catalog with a declaration changed. -/
def change (c : Catalog) (t : TypeId) (f : TypeDecl → TypeDecl) : Catalog :=
  { c with types := c.types.modify t f }

/-- Adds a type for everybody. -/
def register (t : TypeDecl) : Work Catalog TypeId := do
  let c ← get
  if (c.shared.lookup t.key).isSome then throw (CatalogError.registeredTwice t.key).failure
  let (id, c) := c.push t
  set { c with shared := c.shared ++ [(t.key, id)] }
  return id

/-- Makes a type of the table known to one unit. -/
def adopt (c : Catalog) (id : TypeId) : Except CatalogError Catalog :=
  let key := (c.decl id).key
  if (c.generated.lookup key).isSome then .error (.generatedTwice key)
  else if (c.shared.lookup key).isSome then .error (.collides key)
  else .ok { c with generated := c.generated ++ [(key, id)] }

/-- Adds a type for one unit. -/
def generate (c : Catalog) (t : TypeDecl) : Except CatalogError (TypeId × Catalog) :=
  let (id, c) := c.push t
  (c.adopt id).map fun c => (id, c)

/-- Gives an HTML tag its type; the empty tag stands for all tags without one. -/
def setDomTag (c : Catalog) (tag : Text) (t : Option TypeId) : Catalog :=
  if tag.isEmpty then { c with domOther := t }
  else { c with domTags := (Text.toLower tag, t) :: c.domTags }

/-- A primitive and its boxed counterpart. -/
def addPrimitive (c : Catalog) (name : Text) : Catalog :=
  let (plain, c) := c.push { package := [], packageName := [], name, kind := .primitive }
  let (boxed, c) := c.push
    { package := [], packageName := [], name := "*" ++ name, kind := .boxed,
      unboxed := some plain }
  { c with shared := c.shared ++ [(name, plain), ("*" ++ name, boxed)] }

/-- The catalog every other one extends: the primitives, their boxed counterparts and `any`. -/
def bare : Catalog :=
  let c := primitiveNames.foldl addPrimitive {}
  let (any, c) := c.push { package := [], packageName := [], name := "any", kind := .interface }
  { c with shared := c.shared ++ [(Text.ofString "any", any)] }

/-! ## Kinds of types -/

/-- The type is a primitive. -/
def isPrimitive (c : Catalog) : Option TypeId → Bool
  | some t => (c.decl t).kind == .primitive
  | none => false

/-- The type is a number. -/
def isNumeric (c : Catalog) : Option TypeId → Bool
  | some t => (c.decl t).kind == .primitive && numericNames.contains (c.decl t).name
  | none => false

/-- The type is a number that may be missing. -/
def isBoxedNumeric (c : Catalog) : Option TypeId → Bool
  | some t => (c.decl t).kind == .boxed && c.isNumeric (c.decl t).unboxed
  | none => false

/-- The type is an enumeration. -/
def isEnumeration (c : Catalog) : Option TypeId → Bool
  | some t => (c.decl t).kind == .enumeration
  | none => false

/-- The type is the text primitive. -/
def isText (c : Catalog) : Option TypeId → Bool
  | some t => (c.decl t).kind == .primitive && (c.decl t).name == "string"
  | none => false

/-- The type is boxed. -/
def isBoxed (c : Catalog) : Option TypeId → Bool
  | some t => (c.decl t).kind == .boxed
  | none => false

/-- The primitive of a boxed type. -/
def unboxed (c : Catalog) : Option TypeId → Option TypeId
  | some t => (c.decl t).unboxed
  | none => none

/-- The type is the interface that every value has. -/
def isAny (c : Catalog) (t : TypeId) : Bool :=
  let d := c.decl t
  d.kind == .interface && d.package.isEmpty && d.name == "any"

/-! ## Methods -/

/-- A method with the keys of its parameters. -/
def signature (c : Catalog) (m : Method) : Text :=
  m.name ++ "(" ++ Text.join ", " (m.params.map fun p => c.key p.type) ++ ")"

/-! ## Supertypes -/

/-- The types directly above a type: its interfaces, then its superclass. -/
def parents (c : Catalog) (t : TypeId) : List TypeId :=
  (c.decl t).interfaces.filterMap id ++ (c.decl t).super.toList

/-- Goes up from the types in `queue`, which were all seen; what is new is seen from then on. -/
def climb (c : Catalog) : Nat → List TypeId → List TypeId → List TypeId
  | 0, seen, _ => seen
  | _ + 1, seen, [] => seen
  | fuel + 1, seen, t :: queue =>
    let fresh := ((c.parents t).filter fun s => !seen.contains s).eraseDups
    climb c fuel (seen ++ fresh) (queue ++ fresh)

/-- The type and its supertypes. Every type of the table is visited at most once. -/
def hierarchy (c : Catalog) (t : TypeId) : List TypeId := climb c (c.types.size + 1) [t] [t]

/-- The hierarchy of a type that may be missing. -/
def hierarchy? (c : Catalog) : Option TypeId → List TypeId
  | some t => c.hierarchy t
  | none => []

/-- A method declared by a type itself. -/
def declaredMethod? (c : Catalog) (t : TypeId) (name : Text) : Option Method :=
  (c.decl t).methods.find? (·.name == name)

/-- The nearest method with a name. -/
def method? (c : Catalog) (t : Option TypeId) (name : Text) : Option Method :=
  (c.hierarchy? t).findSome? fun s => c.declaredMethod? s name

/-- The accessor of a property: `Prop`, `GetProp` or `IsProp`, without parameters and with a
result. -/
def getter? (c : Catalog) (t : Option TypeId) (property : Text) : Option Method :=
  let name := Text.exported property
  [name, "Get" ++ name, "Is" ++ name].findSome? fun name =>
    (c.method? t name).filter fun m => m.params.isEmpty && m.returns.isSome

/-- The setters of a property, nearest first; of those with one signature only the nearest
counts. -/
def setters (c : Catalog) (t : Option TypeId) (property : Text) : List Method :=
  let named := (c.hierarchy? t).flatMap fun s =>
    (c.decl s).methods.filter fun m => m.name == Text.setterOf property && !m.params.isEmpty
  named.foldl (fun found m =>
    if found.any fun n => c.signature n == c.signature m then found else found ++ [m]) []

/-- The constructor that takes exactly these types. -/
def constructor? (c : Catalog) (t : TypeId) (params : List (Option TypeId)) : Option Method :=
  (c.decl t).constructors.find? fun m =>
    m.params.map (fun p => c.key p.type) == params.map c.key

/-- A value of one type can be used where the other is expected: it is the same type, one of its
supertypes or `any`. -/
def isAssignable (c : Catalog) : Option TypeId → Option TypeId → Bool
  | some source, some target =>
    (c.decl source).key == (c.decl target).key || c.isAny target ||
      (c.hierarchy source).any fun s => (c.decl s).key == (c.decl target).key
  | _, _ => false

end Catalog

end ViewBinder
