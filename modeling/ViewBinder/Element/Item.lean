-- Items: elements that hold items rather than widgets: menus, lists, grids, trees and buttons with
-- faces; and images, which are made from a resource.
import ViewBinder.Element.Construction
import ViewBinder.Element.Panel

namespace ViewBinder.Element

open Markup (Document)
open Session

/-- The child is of a type that fits. -/
def isOf (child : Nat) (wanted : Option TypeId) : Work Session Bool := do
  return Template.isOf (← getCatalog) (← getDocument) child wanted

/-! ## Menus -/

/-- A bar of menu items and separators. -/
def menuBar (build : Builder) (e : Nat) (f : FieldId) (type : TypeId) : Work Session Unit := do
  let boolean ← primitive "bool"
  if !(← isMade f) then
    let vertical ← takeDefault e "vertical" "false" [boolean]
    Draft.setInitializer f (callText (← constructor e type [boolean]) [vertical])
  let item ← uiType "MenuItem"
  let separator ← uiType "MenuItemSeparator"
  for child in ← Document.takeChildren e do
    if ← isOf child item then
      call f "AddItem" [← Draft.use (← Content.buildChild build e child item)]
    else if ← isOf child separator then
      call f "AddSeparator" [← Draft.use (← Content.buildChild build e child separator)]
    else failOnlyChildren "MenuItem or MenuItemSeparator" e child

/-- Text of a menu item and whether it is markup: from the attributes, or from the body. -/
def menuText (build : Builder) (e : Nat) : Work Session (List Text) := do
  let text ← take? e "text" [← primitive "string"]
  let asMarkup ← takeDefault e "asHTML" "false" [← primitive "bool"]
  match text with
  | some text => return [text, asMarkup]
  | none =>
    if (← getDocument).hasContent e then return [← Content.markupLiteral build e, "true"]
    else return [Text.quote [], "false"]

/-- A menu item with its text and maybe a menu below it. -/
def menuItem (build : Builder) (e : Nat) (f : FieldId) (type : TypeId) : Work Session Unit := do
  let bar ← uiType "MenuBar"
  let c ← getCatalog
  let d ← getDocument
  let menus ← Document.takeChildrenWhere e fun child => Template.isOf c d child bar
  match menus with
  | _ :: second :: _ => failOn second fun d => .secondSubMenu (d.tag e)
  | _ => pure ()
  if !(← isMade f) then
    let make ← constructor e type [← primitive "string", ← primitive "bool"]
    Draft.setInitializer f (callText make (← menuText build e))
  for menu in menus do
    call f "SetSubMenu" [← Draft.use (← Content.buildChild build e menu bar)]

/-! ## Lists and grids -/

/-- A list of items, each with text and maybe a value. -/
def listBox (e : Nat) (f : FieldId) : Work Session Unit := do
  let text ← primitive "string"
  for child in ← Document.takeChildren e do
    if !(← getDocument).isOwnTag e child "item" then failOnlyChildren "<item>" e child
    let value ← take? child "value" [text]
    Document.assertNoAttributes child
    let item := Content.literal (← Document.takePlainText child)
    match value with
    | some value => call f "AddItem" [item, value]
    | none => call f "AddItemText" [item]

/-- What a cell of a grid holds. -/
inductive GridContent where
  | markup (html : Text)
  | widget (field : FieldId)
  deriving Repr

/-- A cell of a grid: content and style. -/
structure GridCell where
  content : GridContent
  style : Option Text
  deriving Repr

/-- A row of a grid: style and cells. -/
structure GridRow where
  style : Option Text
  cells : List GridCell
  deriving Repr

/-- Reads a cell. -/
def gridCell (build : Builder) (e row child : Nat) : Work Session GridCell := do
  let style ← take? child "styleName" [← primitive "string"]
  Document.assertNoAttributes child
  let d ← getDocument
  if d.isOwnTag e child "cell" then
    return ⟨.markup (← Content.markupLiteral build child), style⟩
  else if d.isOwnTag e child "customCell" then
    return ⟨.widget (← onlyWidget build child), style⟩
  else failOnlyChildren "<cell> or <customCell>" row child

/-- Reads a row. -/
def gridRow (build : Builder) (e row : Nat) : Work Session GridRow := do
  if !(← getDocument).isOwnTag e row "row" then failOnlyChildren "<row>" e row
  let style ← take? row "styleName" [← primitive "string"]
  Document.assertNoAttributes row
  let cells ← (← Document.takeChildren row).mapM (gridCell build e row)
  return ⟨style, cells⟩

/-- Fills a cell. -/
def fillCell (f : FieldId) (row column : Nat) (cell : GridCell) : Work Session Unit := do
  let place := [Text.ofNat row, Text.ofNat column]
  match cell.content with
  | .widget g => call f "SetWidgetAt" (place ++ [← Draft.use g])
  | .markup html => call f "SetHTMLAt" (place ++ [html])
  match cell.style with
  | some style => call f "SetCellStyleName" (place ++ [style])
  | none => pure ()

/-- A grid of rows: it gets its size first, then the styles of its rows, then its cells. -/
def grid (build : Builder) (e : Nat) (f : FieldId) : Work Session Unit := do
  let rows ← (← Document.takeChildren e).mapM (gridRow build e)
  if rows.isEmpty then return
  let columns := (rows.map (·.cells.length)).foldl max 0
  call f "Resize" [Text.ofNat rows.length, Text.ofNat columns]
  for (row, r) in rows.zipIdx do
    match row.style with
    | some style => call f "SetRowStyleName" [Text.ofNat r, style]
    | none => pure ()
  for (row, r) in rows.zipIdx do
    for (cell, c) in row.cells.zipIdx do fillCell f r c cell

/-! ## Trees, buttons and images -/

/-- Adds the items of a tree; `held` tells that there was a widget. Only items that can hold a
widget accept other children. -/
def treeItemsFrom (build : Builder) (e : Nat) (f : FieldId) (setWidget : Option Method)
    (held : Bool) : List Nat → Work Session Unit
  | [] => return ()
  | child :: rest => do
    let item ← uiType "TreeItem"
    if ← isOf child item then
      call f "AddItem" [← Draft.use (← Content.buildChild build e child item)]
      treeItemsFrom build e f setWidget held rest
    else match setWidget with
      | none => failOnlyChildren "TreeItem" e child
      | some method =>
        if held then failOn child fun d => .secondTreeWidget (d.tag e) (d.tag child)
        match method.params with
        | [] => throw .crash
        | widget :: _ =>
          call f "SetWidget" [← Draft.use (← Content.buildChild build e child widget.type)]
          treeItemsFrom build e f setWidget true rest

/-- A tree or an item of one. -/
def treeItems (build : Builder) (e : Nat) (f : FieldId) (type : TypeId) : Work Session Unit := do
  let children ← Document.takeImportedChildren e
  treeItemsFrom build e f ((← getCatalog).method? type "SetWidget") false children

/-- The faces a button can have. -/
def faceNames : List Text :=
  ["upFace", "downFace", "upHoveringFace", "downHoveringFace", "upDisabledFace",
   "downDisabledFace"]

/-- Reads the faces of a button, `seen` being those before: an image, markup or both. -/
def facesFrom (build : Builder) (e : Nat) (f : FieldId) (seen : List Text) :
    List Nat → Work Session Unit
  | [] => return ()
  | face :: rest => do
    let base := ((← getDocument).name face).base
    if seen.contains base then failOn face fun d => .onlyOne (d.name face).text (d.tag e)
    let method := "Set" ++ Text.capitalize base
    match ← take? face "image" [← resourceType? "ImageResource"] with
    | some image => call f (method ++ "Image") [image]
    | none => pure ()
    Document.assertNoAttributes face
    if (← getDocument).hasContent face then call f method [← Content.markupLiteral build face]
    facesFrom build e f (base :: seen) rest

/-- The faces of a button. -/
def faces (build : Builder) (e : Nat) (f : FieldId) : Work Session Unit := do
  let d ← getDocument
  let found ← Document.takeChildrenWhere e fun child => faceNames.any (d.isOwnTag e child)
  facesFrom build e f [] found

/-- An image that is made from a resource. -/
def image (e : Nat) (f : FieldId) (type : TypeId) : Work Session Unit := do
  if !(← getDocument).has e "resource" then return
  let resource ← resourceType? "ImageResource"
  let expr ← takeRequired e "resource" [resource]
  if ← isMade f then call f "SetResource" [expr]
  else
    let c ← getCatalog
    match c.constructor? type [resource] with
    | some m => Draft.setInitializer f (callText (← Draft.qualify type m.name) [expr])
    | none => failOn e fun _ => .noImageConstructor (c.simpleName type)

end ViewBinder.Element
