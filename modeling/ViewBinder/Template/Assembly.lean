-- Assembling the program: the fields of a session in an order in which each is made after those
-- it needs, the attach sections, and the bindings at the end. No local may hide a name the
-- program uses.
import ViewBinder.Field.Reference
import ViewBinder.Session
import ViewBinder.Settings

namespace ViewBinder.Assembly

open Session

/-- The type of a field as the program writes it. -/
def fieldType (f : Field) : Work Session Text := do
  if !f.typeRef.isEmpty then return f.typeRef
  match f.type with
  | some t => Draft.typeRef t
  | none => throw .crash

/-- The statements that make a field; a field that is found later has none. -/
def constructLines (f : Field) : List Text :=
  match f.initializer with
  | some expr => (f.name ++ " = " ++ expr) :: f.statements
  | none => []

/-- The statements of a field that is found later. -/
def lateLines (f : Field) : List Text := if f.initializer.isSome then [] else f.statements

/-- The name of a record of an attach section. -/
def isRecordName (name : Text) : Bool :=
  let digits := Text.dropFront name "attach"
  Text.startsWith name "attach" && !digits.isEmpty && digits.all Text.isDigitByte

/-- The package known by a name; of several the last in the order of their paths. -/
def importedAs? (im : Imports) (name : Text) : Option Text :=
  (im.list.reverse.find? fun entry => entry.2 == name).map (·.1)

/-- What is wrong with the name of a field. -/
def nameProblem? (im : Imports) (name : Text) : Option Problem :=
  match importedAs? im name with
  | some path => some (.importCollision name path)
  | none =>
    if name == "owner" || isRecordName name then some (.reservedCollision name) else none

/-- Reports every field that hides a name the program uses. -/
def checkNames (fields : List Field) : Work Session Unit := do
  let im := (← get).imports
  for f in fields do
    match nameProblem? im f.name with
    | some p =>
      let place := f.element.bind (← getDocument).location
      Draft.report place p
    | none => pure ()
  match (← get).log.failure? with
  | some failure => throw failure
  | none => return ()

/-- The program that makes the field `root`. -/
def assemble (settings : Settings) (url binderName : Text) (root : FieldId) :
    Work Session Program := do
  let table := (← get).fields
  let order ← Draft.orFailAt none table.constructionOrder
  let made := order.map table.field
  let declared := table.declarationOrder.map table.field
  let rootType ← fieldType (table.field root)
  let ownerType ← match (← get).owner with
    | some owner => Draft.typeRef owner
    | none => pure (Text.ofString "any")
  let declarations ← declared.mapM fun f => do return (⟨f.name, ← fieldType f⟩ : Declaration)
  let sections := (← get).sections
  let attach ← if sections.finished.isEmpty then pure []
    else do pure (sections.render (← uiFunction "AttachToDom"))
  checkNames declared
  let bundle ← Draft.bundleDeclarations
  let s ← get
  return {
    package := settings.package, source := Path.base url, imports := s.imports, binderName,
    ownerType, rootType, rootExpr := (table.field root).name, declarations,
    construct := made.flatMap constructLines, attach, detach := sections.detached,
    trailing := made.flatMap lateLines ++ s.trailing,
    unused := ((table.declarationOrder.filter fun id => id != root && !(table.field id).used).map
      fun id => (table.field id).name),
    extra := bundle ++ s.messages.declarations }

end ViewBinder.Assembly
