-- Constructing fields: a field is made by a factory of the owner, by the constructor its type marks
-- or by one without parameters; then a setter is called for every attribute that is left.
import ViewBinder.Template.Content

namespace ViewBinder.Element

open Markup (Document)
open Session

/-- Takes one required attribute for each parameter. -/
def bindArguments (e : Nat) (names : List Text) (params : List Param) : Work Session (List Text) :=
  (names.zip params).mapM fun entry => takeRequired e entry.1 [entry.2.type]

/-- The attributes that the parameters of a marked constructor take. -/
def constructorNames (d : Descriptor) (m : Method) : List Text :=
  if d.constructorParams.length == m.params.length then d.constructorParams
  else m.params.map (·.name)

/-- A call with its arguments. -/
def callText (function : Text) (args : List Text) : Text :=
  function ++ "(" ++ Text.join ", " args ++ ")"

/-- The expression that makes a value of a type without the owner's help. -/
def constructed (e : Nat) (type : TypeId) : Work Session Text := do
  let c ← getCatalog
  let d := c.describe type
  let plain := c.constructor? type []
  match d.constructor with
  | some m =>
    let names := constructorNames d m
    let doc ← getDocument
    if names.any (doc.has e) || plain.isNone then
      let args ← bindArguments e names m.params
      return callText (← Draft.qualify type m.name) args
  | none => pure ()
  match plain with
  | some m => return callText (← Draft.qualify type m.name) []
  | none => failOn e fun _ => .noDefaultConstructor (c.simpleName type)

/-- The expression that makes a value of a type. -/
def initializer (e : Nat) (type : TypeId) : Work Session Text := do
  let s ← get
  match s.ownerTraits.bind fun owner => s.catalog.factoryFor? owner type with
  | some factory =>
    let args ← bindArguments e (factory.params.map (·.name)) factory.params
    return "owner." ++ callText factory.name args
  | none => constructed e type

/-- Reports a failure and goes on. -/
def reportFailure (e : Nat) (failure : Failure) : Work Session Unit :=
  modify fun s =>
    let place := s.document.location e
    let log := match failure with
      | .one d => s.log.error d.kind d.location d.message
      | other => s.log.error .internal place other.text
    { s with log }

/-- Calls the setter of an attribute; the answer tells whether that went well. -/
def setProperty (e : Nat) (f : FieldId) (type : TypeId) (i : Nat) (a : Markup.Attribute) :
    Work Session Bool := do
  let c ← getCatalog
  let tag := (← getDocument).tag e
  let property := a.name.base
  match c.setters type property with
  | [] =>
    Draft.report a.location
      (.noSetter (c.simpleName type) (Text.setterOf property) property tag)
    return false
  | [setter] =>
    modify fun s => { s with document := s.document.useAttribute e i }
    match ← (readValue e a.value (setter.params.map (·.type))).attempt with
    | .ok expr =>
      call f setter.name [expr]
      return true
    | .error .crash => throw .crash
    | .error failure =>
      reportFailure e failure
      return false
  | setters =>
    Draft.report a.location (.ambiguousSetter property tag (setters.map c.signature))
    return false

/-- Makes the field, unless that was done, and sets its properties. All problems with attributes are
reported before the element fails. -/
def properties (e : Nat) (f : FieldId) (type : TypeId) : Work Session Unit := do
  if !(← isMade f) then Draft.setInitializer f (← initializer e type)
  let attributes := ((← getDocument).remaining e).filter fun a => a.2.name.uri.isEmpty
  let answers ← attributes.mapM fun (i, a) => setProperty e f type i a
  if !answers.all id then
    match (← get).log.failure? with
    | some failure => throw failure
    | none => return ()

/-- Nothing is left of the element. -/
def nothingLeft (e : Nat) : Work Session Unit := do
  Document.assertNoAttributes e
  Document.assertNoBody e

/-! ## Messages and child tags -/

/-- Turns attributes that are messages into references to them. -/
def attributeMessages (e : Nat) : Work Session Unit :=
  Content.declareAttributeMessages e fun method => return "\x7b" ++ method ++ "\x7d"

/-- Builds the only child of an element. -/
def onlyChild (build : Builder) (e : Nat) (wanted : Option TypeId) : Work Session FieldId := do
  let child ← Document.takeSingleChild e
  Content.buildChild build e child wanted

/-- Builds the only child of an element as a widget. -/
def onlyWidget (build : Builder) (e : Nat) : Work Session FieldId := do
  let child ← Document.takeSingleChild e
  Content.buildChild build e child (← uiType "IsWidget")

/-- Passes the widget in a child tag to the method the tag stands for, with the attributes of the
tag for the other parameters. `used` counts the tags of this name up to this one. -/
def childTag (build : Builder) (e : Nat) (f : FieldId) (child used : Nat) (slot : ChildSlot) :
    Work Session Unit := do
  let c ← getCatalog
  if 0 < slot.limit && slot.limit < used then
    failOn child fun d => .tagLimit (d.name child).text slot.limit (d.tag e)
  match slot.method.params with
  | [] => failOn child fun d => .noWidgetParameter (c.signature slot.method) (d.name child).text
  | widget :: others =>
    let extra ← bindArguments child (others.map (·.name)) others
    Document.assertNoAttributes child
    let g ← onlyChild build child widget.type
    let name ← Draft.use g
    call f slot.method.name (name :: extra)

/-- Handles the child tags, `seen` being the names of those before. -/
def childTagsFrom (build : Builder) (e : Nat) (f : FieldId) (d : Descriptor) (seen : List Text) :
    List Nat → Work Session Unit
  | [] => return ()
  | child :: rest => do
    let base := ((← getDocument).name child).base
    match d.slot? base with
    | some slot => childTag build e f child (seen.count base + 1) slot
    | none => pure ()
    childTagsFrom build e f d (base :: seen) rest

/-- Handles the child tags that a type declares. -/
def childTags (build : Builder) (e : Nat) (f : FieldId) (type : TypeId) : Work Session Unit := do
  let d := (← getCatalog).describe type
  if d.childSlots.isEmpty then return
  let doc ← getDocument
  let children ← Document.takeChildrenWhere e fun child =>
    (d.slot? (doc.name child).base).isSome && (doc.name child).uri == (doc.name e).uri
  childTagsFrom build e f d [] children

end ViewBinder.Element
