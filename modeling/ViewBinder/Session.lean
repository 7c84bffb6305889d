-- Sessions: the work on one template. A session holds the draft of the program, the owner the
-- template is bound to, and what gathers while elements are read: attach sections, statements at
-- the end, and the expressions spliced into the content being written.
import ViewBinder.Attribute.Parser
import ViewBinder.Catalog.Descriptor
import ViewBinder.Message.Declare
import ViewBinder.Program.Section
import ViewBinder.Resource.Declare
import ViewBinder.Template.Namespace

namespace ViewBinder

open Markup (Document)

/-- The state of the work on one template. -/
structure Session extends Draft where
  parsers : Attribute.Parsers
  /-- The type the template is bound to. -/
  owner : Option TypeId := none
  /-- What the owner declares. -/
  ownerTraits : Option Descriptor := none
  sections : Sections := {}
  /-- Statements at the end of the program: bindings of the owner. -/
  trailing : List Text := []
  /-- How many element ids were made up so far. -/
  ids : Nat := 0
  /-- Markers in the content being written and the expressions they stand for. -/
  splices : List (Text × Text) := []

namespace Session

instance (priority := low) : MonadLift (Work Draft) (Work Session) :=
  ⟨Work.onPart (·.toDraft) fun draft s => { s with toDraft := draft }⟩

/-- Fails with a problem at an element; the problem may show the document. -/
def failOn {α : Type} (e : Nat) (p : Document → Problem) : Work Session α :=
  (Draft.failOn e p : Work Draft α)

/-- The document as it is now. -/
def getDocument : Work Session Document := do return (← get).document

/-! ## Types -/

/-- The catalog as it is now. -/
def getCatalog : Work Session Catalog := do return (← get).catalog

/-- A primitive type. -/
def primitive (name : Text) : Work Session (Option TypeId) := do return (← getCatalog).find? [] name

/-- A type of the widget library. -/
def uiType (name : Text) : Work Session (Option TypeId) := do
  return (← getCatalog).find? Library.uiPackage name

/-- A type of the resource library. -/
def resourceType? (name : Text) : Work Session (Option TypeId) := do
  return (← getCatalog).find? Library.resourcesPackage name

/-- The type of safe markup. -/
def safeHtmlType : Work Session (Option TypeId) := do
  return (← getCatalog).find? Library.safehtmlPackage "SafeHtml"

/-- A function of the widget library. -/
def uiFunction (name : Text) : Work Session Text := do
  return (← Draft.importPackage Library.uiPackage "ui") ++ "." ++ name

/-- A function of the safe markup library. -/
def safeHtmlFunction (name : Text) : Work Session Text := do
  return (← Draft.importPackage Library.safehtmlPackage "safehtml") ++ "." ++ name

/-- The constructor of a type that takes exactly these types, qualified. -/
def constructor (e : Nat) (type : TypeId) (params : List (Option TypeId)) : Work Session Text := do
  let c ← getCatalog
  match c.constructor? type params with
  | some m => Draft.qualify type m.name
  | none => failOn e fun _ => .noConstructor (c.simpleName type) (params.map c.key)

/-! ## Fields -/

/-- The name of a field. -/
def nameOf (f : FieldId) : Work Session Text := do return (← Draft.field f).name

/-- The field has an expression that makes it. -/
def isMade (f : FieldId) : Work Session Bool := do return (← Draft.field f).initializer.isSome

/-- Adds a call of a method of a field. -/
def call (f : FieldId) (method : Text) (args : List Text) : Work Session Unit := do
  let name ← nameOf f
  Draft.addStatement f (name ++ "." ++ method ++ "(" ++ Text.join ", " args ++ ")")

/-- A bundle's field, which is made when it is first asked for. -/
def bundleField (type : Option TypeId) (name initializer : Text) : Work Session Text := do
  let f ← Draft.require .bundle type name
  if !(← isMade f) then Draft.setInitializer f initializer
  Draft.use f

/-- The field of the resource bundle. -/
def resourceBundle : Work Session Text := do
  let b := (← get).bundle
  bundleField b.type "uibindBundle" b.initializer

/-- Declares a message and gives the expression that names its method. -/
def declareMessage (place : Option Location) (m : Message) : Work Session Text := do
  let method ← Draft.declareMessage place m
  let ms := (← get).messages
  return (← bundleField ms.type "uibindMessages" ms.initializer) ++ "." ++ method

/-- Makes up an element id and gives the field that holds it. -/
def declareId : Work Session Text := do
  modify fun s => { s with ids := s.ids + 1 }
  let type ← primitive "string"
  let f ← Draft.register .domId type ("domId" ++ Text.ofNat (← get).ids)
  Draft.setInitializer f ((← uiFunction "CreateUniqueID") ++ "()")
  Draft.use f

/-- The expression that finds the element with an id, as a value of a type. -/
def elementById (type : Option TypeId) (holder : Text) : Work Session Text := do
  let found := (← uiFunction "ElementByID") ++ "(" ++ holder ++ ")"
  match type with
  | none => return found
  | some t =>
    let decl := (← getCatalog).decl t
    if decl.name == "Element" then return found
    else return (← Draft.qualify t ("As" ++ decl.localName)) ++ "(" ++ found ++ ")"

/-! ## Sections and splices -/

/-- Does some work inside an attach section. -/
def attached {α : Type} (expr : Text) (work : Work Session α) : Work Session α := do
  modify fun s => { s with sections := s.sections.enter expr }
  work.andThenAlways fun s => { s with sections := s.sections.leave }

/-- Adds a statement to the innermost attach section. -/
def addAttached (statement : Text) : Work Session Unit :=
  modify fun s => { s with sections := s.sections.add statement }

/-- Adds a statement for when everything was detached again. -/
def addDetached (statement : Text) : Work Session Unit :=
  modify fun s => { s with sections := s.sections.addDetached statement }

/-- A marker that splices an expression into the quoted literal around it. -/
def splice (e : Nat) (expr : Text) : Work Session Text := do
  let place := (← getDocument).location e
  let marker ← Markers.allocate expr place ("\" + " ++ expr ++ " + \"")
  modify fun s => { s with splices := (marker, expr) :: s.splices }
  return marker

/-- The expression for content: the one behind a marker, or a literal. -/
def spliced (content : Text) : Work Session Text := do
  return ((← get).splices.lookup content).getD (Text.quote content)

/-- Writes content with splices of its own. -/
def withSplices {α : Type} (work : Work Session α) : Work Session α := do
  let outer := (← get).splices
  modify fun s => { s with splices := [] }
  work.andThenAlways fun s => { s with splices := outer }

/-! ## Attributes -/

/-- Takes and reads an attribute that may be missing. -/
def take? (e : Nat) (name : Text) (types : List (Option TypeId)) : Work Session (Option Text) := do
  Attribute.take? (← get).parsers e name types

/-- Takes and reads an attribute, or gives the default. -/
def takeDefault (e : Nat) (name otherwise : Text) (types : List (Option TypeId)) :
    Work Session Text := do
  Attribute.takeDefault (← get).parsers e name otherwise types

/-- Takes and reads an attribute that must be there. -/
def takeRequired (e : Nat) (name : Text) (types : List (Option TypeId)) : Work Session Text := do
  Attribute.takeRequired (← get).parsers e name types

/-- Reads a value. -/
def readValue (e : Nat) (value : Text) (types : List (Option TypeId)) : Work Session Text := do
  let s ← get
  Attribute.parse (s.parsers.get s.catalog types) e value

end Session

end ViewBinder
