-- Building elements: an element gets a field of its own, and then the rules of its type are
-- followed one after the other. Children are built the same way; each lies deeper in the
-- document.
import ViewBinder.Element.Body
import ViewBinder.Element.Item
import ViewBinder.Element.Rule

namespace ViewBinder.Element

open Markup (Document)
open Session

/-- Follows a rule. -/
def follow (build : Builder) (e : Nat) (f : FieldId) (type : TypeId) : Rule → Work Session Unit
  | .attributeMessages => attributeMessages e
  | .childTags => childTags build e f type
  | .styledObject => styledObject e f
  | .bodyText => bodyText build e f
  | .bodyMarkup => bodyMarkup build e f
  | .widgets => widgets build e f
  | .markupPanel => markupPanel build e f type
  | .stampedPanel => stampedPanel build e f type
  | .dock => dock build e f
  | .stack => stack build e f
  | .tabs => tabs build e f
  | .layers => layers build e f
  | .absolute => absolute build e f
  | .cells => cells build e f type
  | .disclosure => disclosure build e f
  | .menuBar => menuBar build e f type
  | .menuItem => menuItem build e f type
  | .listBox => listBox e f
  | .grid => grid build e f
  | .image => image e f type
  | .faces => faces build e f
  | .treeItems => treeItems build e f type
  | .alignment => alignment e f
  | .domElement => domElement build e f type
  | .properties => properties e f type
  | .nothingLeft => nothingLeft e

/-- Names that no field may have, because the program uses them. -/
def reservedNames : List Text := ["owner"]

/-- A name that a template may give to a field. -/
def isFieldName (name : Text) : Bool := !name.isEmpty && !reservedNames.contains name

/-- The name an element declares for its field. The attribute without a namespace is accepted with a
warning, unless it is a property of the type. -/
def declaredName? (e : Nat) (type : Option TypeId) : Work Session (Option Text) := do
  match ← Document.takeBinder e "field" with
  | some name => return some name
  | none =>
    let c ← getCatalog
    if !(← getDocument).has e "field" || !(c.setters type "field").isEmpty then return none
    let name ← Document.takeRaw e "field"
    Draft.warn e fun d =>
      "Deprecated use of the field attribute in " ++ d.tag e ++ ", use ui:field"
    return name

/-- The name of an element's field: the declared one or a made-up one. -/
def fieldName (e : Nat) (type : Option TypeId) : Work Session Text := do
  match ← declaredName? e type with
  | some name =>
    if !isFieldName name then failOn e fun d => .illegalFieldName name (d.tag e)
    return name
  | none =>
    modifyGet fun s =>
      let (name, fields) := s.fields.nextName (s.document.name e).base
      (name, { s with fields })

/-- Takes a field from the owner, if the owner provides it. -/
def provide (f : FieldId) (name : Text) : Work Session Unit := do
  match (← get).ownerTraits.bind (·.uiField? name) with
  | some u =>
    if u.provided then
      Draft.changeField f ({ · with provided := true })
      Draft.setInitializer f ("owner." ++ u.name)
  | none => return ()

/-- Does some work while a field is on top of the stack. -/
def inside {α : Type} (e : Nat) (f : FieldId) (work : Work Session α) : Work Session α := do
  modify fun s => { s with fields := s.fields.enter e f }
  work.andThenAlways fun s => { s with fields := s.fields.leave }

/-- Builds an element, its children by `build`. -/
def buildWith (build : Builder) (e : Nat) : Work Session FieldId := do
  let c ← getCatalog
  let d ← getDocument
  let type ← Draft.orFailAt (d.location e) (Template.typeOf c d e)
  let name ← fieldName e type
  let f ← Draft.register .plain type name
  provide f name
  match type with
  | none => throw .crash
  | some t => inside e f ((Rule.chain c t).forM (follow build e f t))
  return f

/-- Builds an element. Children are nodes of the document as well, so the number of its nodes is
fuel enough. -/
def buildWithin : Nat → Builder
  | 0, _ => throw .crash
  | fuel + 1, e => buildWith (buildWithin fuel) e

/-- Builds an element and everything in it. -/
def build (e : Nat) : Work Session FieldId := do
  buildWithin (← getDocument).nodes.size e

end ViewBinder.Element
