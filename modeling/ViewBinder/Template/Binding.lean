-- Bindings of the owner: the fields an owner declares are filled from the template, and its
-- handlers are registered with the fields they name. Every problem is reported before the unit
-- fails.
import ViewBinder.Session

namespace ViewBinder.Binding

open Markup (Document)
open Session

/-- Adds a statement to the end of the program. -/
def addTrailing (statement : Text) : Work Session Unit :=
  modify fun s => { s with trailing := s.trailing ++ [statement] }

/-- Where a field was declared; fields declared at the top count as declared by the interface. -/
def placeOf (f : FieldId) (ui : Nat) : Work Session (Option Location) := do
  let s ← get
  return s.document.location ((s.fields.field f).element.getD ui)

/-- Fills one field of the owner, unless the owner fills the template's. -/
def bindField (ui : Nat) (ownerName : Text) (u : UiField) : Work Session Unit := do
  let s ← get
  match s.fields.find? u.name with
  | none => Draft.report (s.document.location ui) (.ownerFieldMissing u.name ownerName)
  | some id =>
    let f := s.fields.field id
    if u.type.isSome && !s.catalog.isAssignable f.type u.type then
      Draft.report (← placeOf id ui)
        (.ownerFieldType u.name (s.catalog.key f.type) ownerName (s.catalog.key u.type))
    else if !f.provided then
      let name ← Draft.use id
      addTrailing ("owner." ++ u.name ++ " = " ++ name)

/-- Registers a method of the owner with one field. -/
def bindHandlerTo (ui : Nat) (h : Handler) (method : Method) (name : Text) : Work Session Unit := do
  let s ← get
  match s.fields.find? name with
  | none => Draft.report (s.document.location ui) (.handlerUnknownField h.method name)
  | some id =>
    let f := s.fields.field id
    match s.catalog.method? f.type ("Add" ++ h.event ++ "Handler") with
    | some ⟨add, [⟨_, some type⟩], _, _⟩ =>
      let adapter ← Draft.qualify type ((s.catalog.decl type).localName ++ "Func")
      let name ← Draft.use id
      addTrailing
        (name ++ "." ++ add ++ "(" ++ adapter ++ "(owner." ++ method.name ++ "))")
    | some ⟨_, [⟨_, none⟩], _, _⟩ => throw .crash
    | _ =>
      Draft.report (← placeOf id ui)
        (.noSuchEvent name (s.catalog.simpleName f.type) h.event h.method)

/-- Registers a handler of the owner with the fields it names. -/
def bindHandler (ui : Nat) (owner : TypeId) (h : Handler) : Work Session Unit := do
  let s ← get
  let ownerName := s.catalog.simpleName owner
  match s.catalog.method? owner h.method with
  | none =>
    Draft.report (s.document.location ui) (.noHandlerMethod ownerName h.method h.event)
  | some method =>
    if h.fields.isEmpty then
      Draft.report (s.document.location ui) (.handlerWithoutField h.method ownerName)
    h.fields.forM (bindHandlerTo ui h method)

/-- Binds everything the owner declares. -/
def bindOwner (ui : Nat) : Work Session Unit := do
  let s ← get
  match s.owner, s.ownerTraits with
  | some owner, some traits =>
    traits.uiFields.forM (bindField ui (s.catalog.simpleName owner))
    traits.handlers.forM (bindHandler ui owner)
  | _, _ => return ()

end ViewBinder.Binding
