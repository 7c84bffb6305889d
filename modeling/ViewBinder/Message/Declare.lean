-- Declaring messages: a message of a template becomes a method of the messages of its draft.
import ViewBinder.Draft

namespace ViewBinder.Draft

/-- Begins the messages of a program: their type is in the catalog but nobody can name it. -/
def openMessages (package packageName name : Text) : Work Draft Unit :=
  modify fun d =>
    let (t, catalog) := d.catalog.push { package, packageName, name, kind := .object }
    { d with catalog, messages := { name, type := some t } }

/-- The catalog knows the methods of all messages declared so far. -/
def updateMessageType : Work Draft Unit :=
  modify fun d =>
    match d.messages.type with
    | some t =>
      let methods := d.messages.methods (d.catalog.find? [] "string")
      { d with catalog := d.catalog.change t fun decl => { decl with methods } }
    | none => d

/-- Declares a message and gives its method. -/
def declareMessage (place : Option Location) (m : Message) : Work Draft Text := do
  let (i, messages) ← orFailAt place ((← get).messages.declare m)
  modify ({ · with messages })
  updateMessageType
  return Messages.methodName i

end ViewBinder.Draft
