-- Fields: the locals of a generated program. Each has a name of its own, a type, an expression that
-- makes it and statements that follow. A field may need others to be made first; while an element
-- is built, its field is on top of a stack and needs whatever is declared or referred to.
import ViewBinder.Catalog.Basic
import ViewBinder.Diagnostic.Problem

namespace ViewBinder

/-- The class a field is declared in; a lower rank comes first. -/
structure Precedence where
  rank : Int
  deriving DecidableEq, Repr

namespace Precedence

/-- Elements of the template. -/
def plain : Precedence := ⟨1⟩

/-- Helpers that stamp widgets into markup. -/
def stamper : Precedence := ⟨2⟩

/-- Ids of elements in markup. -/
def domId : Precedence := ⟨3⟩

/-- What a template takes from elsewhere. -/
def imported : Precedence := ⟨4⟩

/-- Generated styles. -/
def style : Precedence := ⟨5⟩

/-- Generated bundles of resources and messages. -/
def bundle : Precedence := ⟨6⟩

/-- The name of a class. -/
def name (p : Precedence) : Text :=
  if p.rank == 1 then "DEFAULT"
  else if p.rank == 2 then "RENDERABLE_STAMPER"
  else if p.rank == 3 then "DOM_ID_HOLDER"
  else if p.rank == 4 then "IMPORTED"
  else if p.rank == 5 then "GENERATED_CSS"
  else if p.rank == 6 then "GENERATED_BUNDLE"
  else "Precedence(" ++ Text.ofInt p.rank ++ ")"

end Precedence

/-- The number of a field, in the order of declaration. -/
abbrev FieldId := Nat

/-- A local of the program. -/
structure Field where
  /-- The identifier. -/
  name : Text
  /-- The name as the template spells it. -/
  declared : Text
  type : Option TypeId
  /-- The type as the program writes it, where it does not follow from the type. -/
  typeRef : Text := []
  precedence : Precedence
  /-- The element being built when the field was declared. -/
  element : Option Nat
  initializer : Option Text := none
  statements : List Text := []
  /-- The owner supplies the value. -/
  provided : Bool := false
  /-- Generated code reads the field. -/
  used : Bool := false
  /-- Names of fields to be made before. -/
  needs : List Text := []
  deriving Repr

namespace Field

/-- The field with one more need; itself is none, and each is kept once. -/
def withNeed (f : Field) (other : Text) : Field :=
  if other == f.name || f.needs.contains other then f else { f with needs := f.needs ++ [other] }

/-- The field with one more statement, which reads it. -/
def withStatement (f : Field) (statement : Text) : Field :=
  { f with statements := f.statements ++ [statement], used := true }

end Field

/-- A use of a field in an attribute value. -/
structure FieldReference where
  element : Nat
  /-- A field name and accessors, with dots between them. -/
  path : Text
  /-- The types one of which is expected; none means that any will do. -/
  types : List (Option TypeId)
  /-- The marker that stands for the expression. -/
  marker : Text
  deriving Repr

/-- The parts of a reference between its dots. -/
def FieldReference.segments (r : FieldReference) : List Text := r.path.splitOn '.'.toUInt8

/-- The name of the field that is referred to. -/
def FieldReference.fieldName (r : FieldReference) : Text := r.segments.headD []

/-- An element and its field. -/
structure Frame where
  element : Nat
  field : FieldId
  deriving Repr

/-- The fields of one unit. -/
structure FieldTable where
  fields : Array Field := #[]
  /-- What is being built, innermost first. -/
  stack : List Frame := []
  references : List FieldReference := []
  /-- How many names were made up so far. -/
  counter : Nat := 0
  deriving Repr

namespace FieldTable

/-- A field that stands for a number outside the table. -/
def noField : Field :=
  { name := [], declared := [], type := none, precedence := .plain, element := none }

/-- The field with a number. -/
def field (t : FieldTable) (id : FieldId) : Field := t.fields[id]?.getD noField

/-- The number of the field with an identifier. -/
def byName? (t : FieldTable) (name : Text) : Option FieldId :=
  (List.range t.fields.size).find? fun id => (t.field id).name == name

/-- The number of the field a name stands for. -/
def find? (t : FieldTable) (name : Text) : Option FieldId := t.byName? (Text.sanitize name)

/-- The table with a field changed. -/
def change (t : FieldTable) (id : FieldId) (f : Field → Field) : FieldTable :=
  { t with fields := t.fields.modify id f }

/-- The field being built. -/
def current (t : FieldTable) : Option FieldId := t.stack.head?.map (·.field)

/-- The element being built. -/
def currentElement (t : FieldTable) : Option Nat := t.stack.head?.map (·.element)

/-- The field being built needs another. -/
def depend (t : FieldTable) (other : Text) : FieldTable :=
  match t.current with
  | some id => t.change id (·.withNeed other)
  | none => t

/-- A made-up name for an element. -/
def nextName (t : FieldTable) (tag : Text) : Text × FieldTable :=
  ("f_" ++ Text.exported tag ++ Text.ofNat (t.counter + 1), { t with counter := t.counter + 1 })

/-- A new field, whose name must be free. -/
def register (t : FieldTable) (c : Catalog) (precedence : Precedence) (type : Option TypeId)
    (name : Text) : Except Problem (FieldId × FieldTable) :=
  match t.find? name with
  | some old => .error (.duplicateField name (c.key (t.field old).type) (c.key type))
  | none =>
    let f : Field :=
      { name := Text.sanitize name, declared := name, type, precedence,
        element := t.currentElement }
    .ok (t.fields.size, { t with fields := t.fields.push f }.depend f.name)

/-- The field with a name, or a new one; an old one must have the same type. -/
def require (t : FieldTable) (c : Catalog) (precedence : Precedence) (type : Option TypeId)
    (name : Text) : Except Problem (FieldId × FieldTable) :=
  match t.find? name with
  | some old =>
    let f := t.field old
    if c.key f.type != c.key type then .error (.duplicateField name (c.key f.type) (c.key type))
    else .ok (old, t.depend f.name)
  | none => t.register c precedence type name

/-- Begins to build an element. -/
def enter (t : FieldTable) (element : Nat) (field : FieldId) : FieldTable :=
  { t with stack := ⟨element, field⟩ :: t.stack }

/-- Ends the innermost element. -/
def leave (t : FieldTable) : FieldTable := { t with stack := t.stack.drop 1 }

/-! ## Order -/

/-- One field comes before another: by its class, then by its number. -/
def precedes (t : FieldTable) (a b : FieldId) : Bool :=
  let p := (t.field a).precedence.rank
  let q := (t.field b).precedence.rank
  p < q || (p == q && a ≤ b)

/-- The fields in the order they are declared. -/
def declarationOrder (t : FieldTable) : List FieldId :=
  sortBy t.precedes (List.range t.fields.size)

/-- All fields that one needs were made. Names that belong to no field do not count. -/
def isReady (t : FieldTable) (made : List FieldId) (id : FieldId) : Bool :=
  (t.field id).needs.all fun name =>
    match t.byName? name with
    | some other => made.contains other
    | none => true

/-- Makes the first field of `left` that is ready, again and again. What is left at the end needs
itself in a circle, or needs what does. -/
def makeReady (t : FieldTable) : Nat → List FieldId → List FieldId → List FieldId × List FieldId
  | 0, made, left => (made, left)
  | fuel + 1, made, left =>
    match left.find? (t.isReady made) with
    | some id => makeReady t fuel (made ++ [id]) (left.erase id)
    | none => (made, left)

/-- The fields in an order in which each comes after those it needs; among those that are ready the
one declared first is made first. -/
def constructionOrder (t : FieldTable) : Except Problem (List FieldId) :=
  let (made, left) := t.makeReady t.fields.size [] t.declarationOrder
  if left.isEmpty then .ok made
  else .error (.fieldCycle
    (((List.range t.fields.size).filter left.contains).map fun id => (t.field id).name))

/-! ## References -/

/-- A reference made while an element is built, with the marker that stands for it. -/
def addReference (t : FieldTable) (r : FieldReference) : FieldTable :=
  { t with references := t.references ++ [r] }.depend r.fieldName

end FieldTable

end ViewBinder
