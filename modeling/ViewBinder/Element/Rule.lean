-- Rules of elements: how an element becomes the construction of its field. Which rules an element
-- follows is decided by its type. A rule belongs to a capability, and of the rules of one
-- capability only that of the nearest type counts.
import ViewBinder.Catalog.Basic
import ViewBinder.Library

namespace ViewBinder

/-- The rules, from attributes that are messages to the check that nothing is left. -/
inductive Rule where
  | attributeMessages
  | childTags
  | styledObject
  | bodyText
  | bodyMarkup
  | widgets
  | markupPanel
  | stampedPanel
  | dock
  | stack
  | tabs
  | layers
  | absolute
  | cells
  | disclosure
  | menuBar
  | menuItem
  | listBox
  | grid
  | image
  | faces
  | treeItems
  | alignment
  | domElement
  | properties
  | nothingLeft
  deriving DecidableEq, Repr

/-- What rules are about. -/
inductive Capability where
  | object
  | body
  | children
  | alignment
  | image
  | menuItem
  | dom
  | faces
  deriving DecidableEq, Repr

/-- A rule for a type and all types below it. -/
structure RuleEntry where
  package : Text
  name : Text
  capability : Capability
  rule : Rule
  deriving DecidableEq, Repr

namespace Rule

/-- A rule for a widget type. -/
def widget (name : Text) (capability : Capability) (rule : Rule) : RuleEntry :=
  ⟨Library.uiPackage, name, capability, rule⟩

/-- The rules of types. -/
def table : List RuleEntry :=
  [widget "UIObject" .object .styledObject, widget "HasText" .body .bodyText,
   widget "HasHTML" .body .bodyMarkup, widget "HasWidgets" .children .widgets,
   widget "HTMLPanel" .children .markupPanel,
   widget "RenderablePanel" .children .stampedPanel,
   widget "DockLayoutPanel" .children .dock, widget "StackLayoutPanel" .children .stack,
   widget "TabLayoutPanel" .children .tabs, widget "LayoutPanel" .children .layers,
   widget "AbsolutePanel" .children .absolute, widget "CellPanel" .children .cells,
   widget "DisclosurePanel" .children .disclosure, widget "MenuBar" .children .menuBar,
   widget "MenuItem" .menuItem .menuItem, widget "ListBox" .children .listBox,
   widget "Grid" .children .grid, widget "Image" .image .image,
   widget "CustomButton" .faces .faces, widget "HasTreeItems" .children .treeItems,
   widget "HasAlignment" .alignment .alignment,
   ⟨Library.domPackage, "Element", .dom, .domElement⟩]

/-- The entries for a type itself. -/
def entriesFor (t : TypeDecl) : List RuleEntry :=
  table.filter fun entry => entry.package == t.package && entry.name == t.name

/-- The entries that count, `kept` before the others: one for each capability. -/
def claim (kept : List RuleEntry) : List RuleEntry → List RuleEntry
  | [] => kept
  | entry :: rest =>
    if kept.any (·.capability == entry.capability) then claim kept rest
    else claim (kept ++ [entry]) rest

/-- The entries for a type and its supertypes that count, nearest first. -/
def entriesOf (c : Catalog) (t : TypeId) : List RuleEntry :=
  claim [] ((c.hierarchy t).flatMap fun s => entriesFor (c.decl s))

/-- The rules an element of a type follows, in order. -/
def chain (c : Catalog) (t : TypeId) : List Rule :=
  [attributeMessages, childTags] ++ (entriesOf c t).map (·.rule) ++ [properties, nothingLeft]

end Rule

end ViewBinder
