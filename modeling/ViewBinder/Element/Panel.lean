-- Panels: elements that hold widgets. A panel adds its children one by one; many panels have tags
-- of their own around a child that say where it goes.
import ViewBinder.Element.Construction
import ViewBinder.Program.Pattern

namespace ViewBinder.Element

open Markup (Document)
open Session

/-- Builds a child as a widget. -/
def widgetChild (build : Builder) (e child : Nat) : Work Session FieldId := do
  Content.buildChild build e child (← uiType "IsWidget")

/-- Fails with a problem that names the children a panel accepts. -/
def failOnlyChildren {α : Type} (allowed : Text) (parent child : Nat) : Work Session α :=
  failOn child fun d => .onlyChildren allowed (d.tag parent) (d.tag child)

/-- Adds every child as a widget. -/
def widgets (build : Builder) (e : Nat) (f : FieldId) : Work Session Unit := do
  for child in ← Document.takeChildren e do
    let g ← widgetChild build e child
    call f "Add" [← Draft.use g]

/-- Attributes of alignment, their types and setters. -/
def alignments : List (Text × Text × Text) :=
  [("horizontalAlignment", "HorizontalAlignmentConstant", "SetHorizontalAlignment"),
   ("verticalAlignment", "VerticalAlignmentConstant", "SetVerticalAlignment")]

/-- Reads the alignment of a panel. -/
def alignment (e : Nat) (f : FieldId) : Work Session Unit := do
  for (attr, typeName, method) in alignments do
    match ← take? e attr [← uiType typeName] with
    | some expr => call f method [expr]
    | none => pure ()

/-! ## Docks -/

/-- Direction tags of a dock and their methods. -/
def directions : List (Text × Text) :=
  [("north", "AddNorth"), ("south", "AddSouth"), ("east", "AddEast"), ("west", "AddWest"),
   ("lineStart", "AddLineStart"), ("lineEnd", "AddLineEnd")]

/-- Adds the widget of the tag for the middle; `centers` tags of this kind came before. -/
def dockCenter (build : Builder) (e : Nat) (f : FieldId) (child centers : Nat) :
    Work Session Unit := do
  if 0 < centers then failOn child fun d => .onlyOne (d.name child).text (d.tag e)
  let g ← onlyWidget build child
  Document.assertNoAttributes child
  call f "Add" [← Draft.use g]

/-- Adds the widget of a direction tag with its size. -/
def dockSide (build : Builder) (e : Nat) (f : FieldId) (child : Nat) : Work Session Unit := do
  match directions.lookup ((← getDocument).name child).base with
  | none => failOn child fun d => .unknownDirection (d.tag child) (d.tag e)
  | some method =>
    let size ← takeRequired child "size" [← primitive "float64"]
    Document.assertNoAttributes child
    let g ← onlyWidget build child
    call f method [← Draft.use g, size]

/-- Adds the children of a dock. -/
def dockFrom (build : Builder) (e : Nat) (f : FieldId) (centers : Nat) :
    List Nat → Work Session Unit
  | [] => return ()
  | child :: rest => do
    let d ← getDocument
    if (d.name child).uri != (d.name e).uri then
      failOn child fun d => .expectedDirection (d.tag e) (d.tag child)
    if (d.name child).base == "center" then
      dockCenter build e f child centers
      dockFrom build e f (centers + 1) rest
    else
      dockSide build e f child
      dockFrom build e f centers rest

/-- A dock: widgets along its sides and one in the middle. -/
def dock (build : Builder) (e : Nat) (f : FieldId) : Work Session Unit := do
  dockFrom build e f 0 (← Document.takeChildren e)

/-! ## Stacks and tabs -/

/-- The header of an item: markup or a widget. -/
inductive Header where
  | markup (html : Text)
  | widget (field : FieldId)
  deriving Repr

/-- Reads a header tag and, where it has one, its size. -/
def readHeader (build : Builder) (e tag : Nat) (sized : Bool) :
    Work Session (Header × Option Text) := do
  let size ← if sized then some <$> takeRequired tag "size" [← primitive "float64"] else pure none
  Document.assertNoAttributes tag
  if (← getDocument).isOwnTag e tag "customHeader" then
    return (.widget (← onlyWidget build tag), size)
  else return (.markup (← Content.markupLiteral build tag), size)

/-- Splits an item into its header tag and its widget. -/
def splitItem (build : Builder) (e item : Nat) (header : Option Nat) (content : Option FieldId) :
    List Nat → Work Session (Nat × FieldId)
  | [] =>
    match header, content with
    | some h, some g => return (h, g)
    | _, _ => failOn item fun d => .headerAndWidget (d.tag item)
  | c :: rest => do
    let d ← getDocument
    if d.isOwnTag e c "header" || d.isOwnTag e c "customHeader" then
      if header.isSome then failOn c fun d => .secondHeader (d.tag item)
      splitItem build e item (some c) content rest
    else
      if content.isSome then failOn c fun d => .secondWidget (d.tag item) (d.tag c)
      let g ← widgetChild build item c
      splitItem build e item header (some g) rest

/-- Reads an item: its header tag and its widget. -/
def readItem (build : Builder) (e item : Nat) : Work Session (Nat × FieldId) := do
  Document.assertNoAttributes item
  splitItem build e item none none (← Document.takeChildren item)

/-- A stack: items with headers of a given size. -/
def stack (build : Builder) (e : Nat) (f : FieldId) : Work Session Unit := do
  for child in ← Document.takeChildren e do
    if !(← getDocument).isOwnTag e child "stack" then failOnlyChildren "<stack>" e child
    let (tag, content) ← readItem build e child
    let (header, size) ← readHeader build e tag true
    let name ← Draft.use content
    match header with
    | .widget g => call f "AddStackWidget" ([name, ← Draft.use g] ++ size.toList)
    | .markup html => call f "AddStack" ([name, html, "true"] ++ size.toList)

/-- Tabs: items with headers. -/
def tabs (build : Builder) (e : Nat) (f : FieldId) : Work Session Unit := do
  for child in ← Document.takeChildren e do
    if !(← getDocument).isOwnTag e child "tab" then failOnlyChildren "<tab>" e child
    let (tag, content) ← readItem build e child
    let (header, _) ← readHeader build e tag false
    let name ← Draft.use content
    match header with
    | .widget g => call f "AddTabWidget" [name, ← Draft.use g]
    | .markup html => call f "AddTab" [name, html, "true"]

/-! ## Layers -/

/-- The pairs of attributes that place a layer: two of three across, two of three down. -/
def layerPairs : List (List (Text × Text)) :=
  [[("left", "width"), ("left", "right"), ("right", "width")],
   [("top", "height"), ("top", "bottom"), ("bottom", "height")]]

/-- The names of some pairs, each once, in the order they first appear. -/
def pairNames (pairs : List (Text × Text)) : List Text :=
  (pairs.flatMap fun p => [p.1, p.2]).eraseDups

/-- The pair of attributes that an element sets. None of the names may be set, or exactly the two of
a pair, in the order in which the names of the pairs first appear. -/
def pickPair (e : Nat) (pairs : List (Text × Text)) : Work Session (Option (Text × Text)) := do
  let d ← getDocument
  match (pairNames pairs).filter (d.has e) with
  | [] => return none
  | names =>
    match pairs.find? fun p => names == [p.1, p.2] with
    | some p => return some p
    | none =>
      failOn e fun d => .exactlyOnePair (d.tag e) (pairs.map fun p => p.1 ++ "/" ++ p.2)

/-- What a call has in place of the widget until that is known. -/
def widgetMark : Text := "%[1]s"

/-- The call that places a layer by one group of pairs. -/
def placement? (e : Nat) (pairs : List (Text × Text)) : Work Session (Option Text) := do
  let length := [← primitive "float64", ← uiType "Unit"]
  match ← pickPair e pairs with
  | none => return none
  | some (first, second) =>
    let a ← takeRequired e first length
    let b ← takeRequired e second length
    return some (callText ("SetWidget" ++ Text.capitalize first ++ Text.capitalize second)
      [widgetMark, a, b])

/-- Layers: widgets placed by lengths. -/
def layers (build : Builder) (e : Nat) (f : FieldId) : Work Session Unit := do
  for child in ← Document.takeChildren e do
    if !(← getDocument).isOwnTag e child "layer" then failOnlyChildren "<layer>" e child
    let calls ← layerPairs.mapM (placement? child)
    Document.assertNoAttributes child
    let name ← Draft.use (← onlyWidget build child)
    call f "Add" [name]
    for placed in calls.filterMap id do
      Draft.addStatement f ((← nameOf f) ++ "." ++ Text.replaceAll placed widgetMark name)

/-! ## Places and cells -/

/-- Widgets at places, and widgets without one. -/
def absolute (build : Builder) (e : Nat) (f : FieldId) : Work Session Unit := do
  let whole ← primitive "int"
  for child in ← Document.takeChildren e do
    if (← getDocument).isOwnTag e child "at" then
      let left ← takeRequired child "left" [whole]
      let top ← takeRequired child "top" [whole]
      Document.assertNoAttributes child
      let g ← onlyWidget build child
      call f "AddAt" [← Draft.use g, left, top]
    else call f "Add" [← Draft.use (← widgetChild build e child)]

/-- Attributes of cells, their types and the methods of the panel. -/
def cellAttributes : List (Text × Text × Text) :=
  [("width", "string", "SetCellWidth"), ("height", "string", "SetCellHeight"),
   ("horizontalAlignment", "HorizontalAlignmentConstant", "SetCellHorizontalAlignment"),
   ("verticalAlignment", "VerticalAlignmentConstant", "SetCellVerticalAlignment")]

/-- Adds the widget of a cell. `pattern` is the statement that adds it, with places for the panel
and the widget; the attributes of the cell follow. -/
def cell (build : Builder) (f : FieldId) (tag : Nat) (pattern : Text) : Work Session Unit := do
  let settings ← cellAttributes.mapM fun (attr, typeName, method) => do
    let type ← do
      match ← primitive typeName with
      | some t => pure (some t)
      | none => uiType typeName
    return (← take? tag attr [type]).map fun expr => (method, expr)
  Document.assertNoAttributes tag
  let name ← Draft.use (← onlyWidget build tag)
  Draft.addStatement f (Pattern.fill pattern [← nameOf f, name])
  for (method, expr) in settings.filterMap id do call f method [name, expr]

/-- A cell with a direction, if the panel takes one. -/
def dockCell (build : Builder) (e : Nat) (f : FieldId) (type : TypeId) (child : Nat) :
    Work Session Unit := do
  match (← getCatalog).method? type "AddAt" with
  | some ⟨_, [_, direction], _, _⟩ =>
    let expr ← takeRequired child "direction" [direction.type]
    cell build f child ("%s.AddAt(%s, " ++ expr ++ ")")
  | _ => failOn child fun d => .notAccepted (d.tag e) (d.tag child)

/-- Widgets in cells, and widgets without one. -/
def cells (build : Builder) (e : Nat) (f : FieldId) (type : TypeId) : Work Session Unit := do
  for child in ← Document.takeChildren e do
    let d ← getDocument
    if d.isOwnTag e child "cell" then cell build f child "%s.Add(%s)"
    else if d.isOwnTag e child "Dock" then dockCell build e f type child
    else call f "Add" [← Draft.use (← widgetChild build e child)]

/-! ## Disclosure -/

/-- Reads the images of a header: both or none. -/
def headerImages (f : FieldId) (tag : Nat) : Work Session Unit := do
  let d ← getDocument
  if d.has tag "openImage" || d.has tag "closedImage" then
    let image ← resourceType? "ImageResource"
    let whenOpen ← takeRequired tag "openImage" [image]
    let whenClosed ← takeRequired tag "closedImage" [image]
    call f "SetHeaderImages" [whenOpen, whenClosed]
  Document.assertNoAttributes tag

/-- Adds the children of a disclosure panel; `filled` tells that there was content. -/
def disclosureFrom (build : Builder) (e : Nat) (f : FieldId) (filled : Bool) :
    List Nat → Work Session Unit
  | [] => return ()
  | child :: rest => do
    let d ← getDocument
    if d.isOwnTag e child "header" then
      headerImages f child
      call f "SetHeaderText" [Content.literal (← Document.takePlainText child)]
      disclosureFrom build e f filled rest
    else if d.isOwnTag e child "customHeader" then
      Document.assertNoAttributes child
      call f "SetHeader" [← Draft.use (← onlyWidget build child)]
      disclosureFrom build e f filled rest
    else
      if filled then failOn child fun d => .secondContent (d.tag e) (d.tag child)
      let g ← Content.buildChild build e child (← uiType "Widget")
      call f "SetContent" [← Draft.use g]
      disclosureFrom build e f true rest

/-- A panel with a header that hides or shows its content. -/
def disclosure (build : Builder) (e : Nat) (f : FieldId) : Work Session Unit := do
  disclosureFrom build e f false (← Document.takeChildren e)

end ViewBinder.Element
