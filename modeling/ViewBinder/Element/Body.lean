-- Bodies: elements whose content is text or markup. Widgets take their body as a property, elements
-- of markup and panels of markup are made from it.
import ViewBinder.Element.Construction

namespace ViewBinder.Element

open Markup (Document)
open Session

/-- Attributes with names of styles and the methods that take one name each. -/
def styleLists : List (Text × Text) :=
  [("addStyleNames", "AddStyleName"), ("addStyleDependentNames", "AddStyleDependentName")]

/-- The names in a list with commas between them. -/
def listedNames (value : Text) : List Text :=
  ((value.splitOn ','.toUInt8).map Text.trim).filter (!·.isEmpty)

/-- Reads the attributes that every visible object has beside its setters. -/
def styledObject (e : Nat) (f : FieldId) : Work Session Unit := do
  let text ← primitive "string"
  match ← take? e "debugId" [text] with
  | some id => call f "EnsureDebugID" [id]
  | none => pure ()
  let d ← getDocument
  if d.has e "styleName" && d.has e "stylePrimaryName" then
    failOn e fun d => .bothStyleNames (d.tag e)
  for (attr, method) in styleLists do
    match ← Document.takeRaw e attr with
    | some value =>
      for name in listedNames value do
        call f method [← readValue e name [text]]
    | none => pure ()

/-- Takes the body as plain text. -/
def bodyText (build : Builder) (e : Nat) (f : FieldId) : Work Session Unit := do
  if (← getDocument).hasContent e then
    call f "SetText" [Content.literal (← Content.inner build .plainText e)]

/-- Takes the body as markup. -/
def bodyMarkup (build : Builder) (e : Nat) (f : FieldId) : Work Session Unit := do
  if (← getDocument).hasContent e then call f "SetHTML" [← Content.markupLiteral build e]

/-- Makes an element of markup from everything in it. -/
def domElement (build : Builder) (e : Nat) (f : FieldId) (type : TypeId) : Work Session Unit := do
  if ← isMade f then failOn e fun d => .providedDom (d.tag e)
  let html ← attached (← nameOf f) (Content.outer build (.markup true none false) e)
  let expr := callText (← uiFunction "ElementFromHTML") [Text.quote html]
  let decl := (← getCatalog).decl type
  let expr ← if decl.name == "Element" then pure expr
    else do pure (callText (← Draft.qualify type ("As" ++ decl.localName)) [expr])
  Draft.setInitializer f expr

/-- The body of a panel as markup that may hold fields and widgets. -/
def panelLiteral (build : Builder) (e : Nat) (f : FieldId) (stamped : Bool) :
    Work Session Text := do
  if ← isMade f then failOn e fun d => .providedContent (d.tag e)
  let body := Content.inner build (.markup true (some f) stamped) e
  return Content.literal (← attached ((← nameOf f) ++ ".Element()") body)

/-- Makes a panel from markup; widgets in it replace elements. -/
def markupPanel (build : Builder) (e : Nat) (f : FieldId) (type : TypeId) : Work Session Unit := do
  let text ← primitive "string"
  let tag ← take? e "tag" [text]
  let html ← panelLiteral build e f false
  match tag with
  | some tag => Draft.setInitializer f (callText (← constructor e type [text, text]) [tag, html])
  | none => Draft.setInitializer f (callText (← constructor e type [text]) [html])

/-- Makes a panel from markup into which its widgets are stamped. -/
def stampedPanel (build : Builder) (e : Nat) (f : FieldId) (type : TypeId) : Work Session Unit := do
  let safe ← safeHtmlType
  let html ← panelLiteral build e f true
  let make ← constructor e type [safe]
  let trusted := callText (← safeHtmlFunction "FromTrustedString") [html]
  Draft.setInitializer f (callText make [trusted])

end ViewBinder.Element
