-- The draft of a program: what is known while a template is read. Work on the template itself is
-- part of the work on the draft.
import ViewBinder.Field.Table
import ViewBinder.Marker
import ViewBinder.Markup.Consume
import ViewBinder.Message.Basic
import ViewBinder.Program.Imports
import ViewBinder.Resource.Bundle

namespace ViewBinder

open Markup (Document)

/-- A program under construction. -/
structure Draft where
  document : Document
  catalog : Catalog
  imports : Imports
  markers : Markers := {}
  fields : FieldTable := {}
  bundle : Bundle := {}
  messages : Messages := {}
  log : Log := {}

namespace Draft

instance (priority := low) : MonadLift (Work Document) (Work Draft) :=
  ⟨Work.onPart (·.document) fun document d => { d with document }⟩

instance (priority := low) : MonadLift (Work Markers) (Work Draft) :=
  ⟨Work.onPart (·.markers) fun markers d => { d with markers }⟩

/-- The opening tag of an element as it reads now. -/
def tag (e : Nat) : Work Draft Text := do return (← get).document.tag e

/-- Fails with a problem at an element; the problem may show the document. -/
def failOn {α : Type} (e : Nat) (p : Document → Problem) : Work Draft α :=
  (Document.failOn e p : Work Document α)

/-- Fails at a place if a step did. -/
def orFailAt {α : Type} (place : Option Location) : Except Problem α → Work Draft α
  | .ok a => pure a
  | .error p => failAt place p

/-- Reports a warning at an element; it may show the document. -/
def warn (e : Nat) (message : Document → Text) : Work Draft Unit :=
  modify fun d => { d with log := d.log.warn (d.document.location e) (message d.document) }

/-- Reports a problem and goes on. -/
def report (place : Option Location) (p : Problem) : Work Draft Unit :=
  modify fun d => { d with log := d.log.problem place p }

/-! ## Imports and types -/

/-- Imports a package and gives the name it is known by. -/
def importPackage (path preferred : Text) : Work Draft Text :=
  modifyGet fun d =>
    let (name, imports) := d.imports.add path preferred
    (name, { d with imports })

/-- A name of the package of a type, qualified. -/
def qualify (t : TypeId) (name : Text) : Work Draft Text :=
  modifyGet fun d =>
    let (name, imports) := d.imports.qualify (d.catalog.decl t) name
    (name, { d with imports })

/-- A type as the program writes it. -/
def typeRef (t : TypeId) : Work Draft Text :=
  modifyGet fun d =>
    let (name, imports) := d.imports.typeRef (d.catalog.decl t)
    (name, { d with imports })

/-! ## Fields -/

/-- The field with a number. -/
def field (id : FieldId) : Work Draft Field := do return (← get).fields.field id

/-- Where the element being built stands. -/
def currentPlace (d : Draft) : Option Location := d.fields.currentElement.bind d.document.location

/-- Changes the fields, or fails at the element being built. -/
def changeFields {α : Type} (step : Draft → Except Problem (α × FieldTable)) : Work Draft α := do
  let d ← get
  match step d with
  | .ok (a, fields) => modifyGet fun d => (a, { d with fields })
  | .error p => failAt d.currentPlace p

/-- A new field, whose name must be free. -/
def register (precedence : Precedence) (type : Option TypeId) (name : Text) : Work Draft FieldId :=
  changeFields fun d => d.fields.register d.catalog precedence type name

/-- The field with a name, or a new one. -/
def require (precedence : Precedence) (type : Option TypeId) (name : Text) : Work Draft FieldId :=
  changeFields fun d => d.fields.require d.catalog precedence type name

/-- A field changed. -/
def changeField (id : FieldId) (f : Field → Field) : Work Draft Unit :=
  modify fun d => { d with fields := d.fields.change id f }

/-- Sets the expression that makes a field, which can be done once. -/
def setInitializer (id : FieldId) (expr : Text) : Work Draft Unit := do
  let d ← get
  let f := d.fields.field id
  match f.initializer with
  | some old =>
    failAt (f.element.bind d.document.location) (.secondInitializer f.name old expr)
  | none => changeField id ({ · with initializer := some expr })

/-- Adds a statement that follows the making of a field. -/
def addStatement (id : FieldId) (statement : Text) : Work Draft Unit :=
  changeField id (·.withStatement statement)

/-- Marks a field as read and gives its name. -/
def use (id : FieldId) : Work Draft Text := do
  changeField id ({ · with used := true })
  return (← field id).name

/-- Records that one field needs another. -/
def addNeed (id : FieldId) (other : Text) : Work Draft Unit := changeField id (·.withNeed other)

/-! ## References -/

/-- Records a use of a field and gives the marker that stands for it. -/
def refer (e : Nat) (path : Text) (types : List (Option TypeId)) : Work Draft Text := do
  let place := (← get).document.location e
  let marker ← Markers.allocate ("\x7b" ++ path ++ "\x7d") place path
  modify fun d =>
    { d with fields := d.fields.addReference ⟨e, Text.trim path, types, marker⟩ }
  return marker

end Draft

end ViewBinder
