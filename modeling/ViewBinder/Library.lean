-- The default widget library: the types a template can use when nothing else is declared. The
-- packages are given as manifests and loaded in an order in which each refers only to the ones
-- before it.
import ViewBinder.Catalog.Manifest

namespace ViewBinder.Library

/-! ## Packages -/

/-- Import path of the widgets. -/
def uiPackage : Text := "uibind.dev/ui"

/-- Import path of the document types. -/
def domPackage : Text := "uibind.dev/dom"

/-- Import path of the safe text types. -/
def safehtmlPackage : Text := "uibind.dev/safehtml"

/-- Import path of the resource types. -/
def resourcesPackage : Text := "uibind.dev/resources"

/-- Import path of the message types. -/
def i18nPackage : Text := "uibind.dev/i18n"

/-- The key of a widget type. -/
def ui (name : Text) : Text := keyOf uiPackage name

/-- The key of a document type. -/
def dom (name : Text) : Text := keyOf domPackage name

/-- The key of a safe text type. -/
def safehtml (name : Text) : Text := keyOf safehtmlPackage name

/-- The key of a resource type. -/
def resources (name : Text) : Text := keyOf resourcesPackage name

/-- A method or constructor with named parameters. -/
def takes (name : Text) (params : List (Text × Text)) : MethodSpec :=
  { name, params := params.map fun p => ⟨p.1, p.2⟩ }

/-- A method with named parameters and a result. -/
def maps (name : Text) (params : List (Text × Text)) (returns : Text) : MethodSpec :=
  { takes name params with returns }

/-- An accessor. -/
def gives (name returns : Text) : MethodSpec := { name, returns }

/-! ## Text, documents and resources -/

/-- Text that is safe as markup or address. -/
def safehtmlTypes : List TypeSpec := [
  { name := "SafeHtml", kind := "class",
    methods := [gives "String" "string"] },
  { name := "SafeUri", kind := "class",
    methods := [gives "String" "string"] }]

/-- Elements with a type of their own and their tags. -/
def elementTags : List (Text × List Text) :=
  [("AnchorElement", ["a"]), ("ButtonElement", ["button"]), ("DivElement", ["div"]),
   ("FormElement", ["form"]), ("HeadingElement", ["h1", "h2", "h3", "h4", "h5", "h6"]),
   ("IFrameElement", ["iframe"]), ("ImageElement", ["img"]), ("InputElement", ["input"]),
   ("LIElement", ["li"]), ("LabelElement", ["label"]), ("OListElement", ["ol"]),
   ("ParagraphElement", ["p"]), ("SelectElement", ["select"]), ("SpanElement", ["span"]),
   ("TableCellElement", ["td", "th"]), ("TableElement", ["table"]), ("TableRowElement", ["tr"]),
   ("TextAreaElement", ["textarea"]), ("UListElement", ["ul"])]

/-- The type of an element. -/
def elementType (name : Text) : TypeSpec := { name, kind := "class", super := dom "Element" }

/-- The document types that are not tied to a tag. -/
def domTypes : List TypeSpec := [
  { name := "Element", kind := "class",
    methods := [takes "SetInnerText" [("text", "string")],
                takes "SetInnerHTML" [("html", "string")], takes "SetID" [("id", "string")],
                takes "SetClassName" [("className", "string")],
                takes "SetTitle" [("title", "string")],
                takes "SetAttribute" [("name", "string"), ("value", "string")],
                takes "RemoveAttribute" [("name", "string")], gives "ID" "string"] },
  { name := "Style", kind := "class",
    methods := [takes "SetTextAlign" [("align", dom "TextAlign")]] },
  { name := "TextAlign", kind := "enum",
    constants := [⟨"LEFT", "TextAlignLeft"⟩, ⟨"CENTER", "TextAlignCenter"⟩,
                  ⟨"RIGHT", "TextAlignRight"⟩, ⟨"JUSTIFY", "TextAlignJustify"⟩] }]

/-- Images, data and stylesheets. -/
def resourceTypes : List TypeSpec := [
  { name := "ImageResource", kind := "interface",
    methods := [gives "URL" (safehtml "SafeUri"), gives "Width" "int", gives "Height" "int"] },
  { name := "DataResource", kind := "interface",
    methods := [gives "URL" (safehtml "SafeUri")] },
  { name := "CssResource", kind := "interface",
    methods := [gives "EnsureInjected" "bool", gives "Text" "string"] },
  { name := "ClientBundle", kind := "interface" }]

/-! ## Widgets -/

/-- Units, alignments and directions; event handlers and what fires the events. -/
def events : List TypeSpec := [
  { name := "Unit", kind := "enum",
    constants := [⟨"PX", "UnitPX"⟩, ⟨"PCT", "UnitPCT"⟩, ⟨"EM", "UnitEM"⟩, ⟨"EX", "UnitEX"⟩,
                  ⟨"PT", "UnitPT"⟩, ⟨"PC", "UnitPC"⟩, ⟨"IN", "UnitIN"⟩, ⟨"CM", "UnitCM"⟩,
                  ⟨"MM", "UnitMM"⟩] },
  { name := "HorizontalAlignmentConstant", kind := "class" },
  { name := "VerticalAlignmentConstant", kind := "class" },
  { name := "Direction", kind := "enum",
    constants := [⟨"NORTH", "DirectionNorth"⟩, ⟨"SOUTH", "DirectionSouth"⟩,
                  ⟨"EAST", "DirectionEast"⟩, ⟨"WEST", "DirectionWest"⟩,
                  ⟨"CENTER", "DirectionCenter"⟩, ⟨"LINE_START", "DirectionLineStart"⟩,
                  ⟨"LINE_END", "DirectionLineEnd"⟩] },
  { name := "ClickHandler", kind := "class" },
  { name := "ChangeHandler", kind := "class" },
  { name := "ValueChangeHandler", kind := "class" },
  { name := "KeyUpHandler", kind := "class" },
  { name := "SelectionHandler", kind := "class" },
  { name := "OpenHandler", kind := "class" },
  { name := "CloseHandler", kind := "class" },
  { name := "Command", kind := "class" },
  { name := "HasClickHandlers", kind := "interface",
    methods := [takes "AddClickHandler" [("h", ui "ClickHandler")]] },
  { name := "HasChangeHandlers", kind := "interface",
    methods := [takes "AddChangeHandler" [("h", ui "ChangeHandler")]] },
  { name := "HasValueChangeHandlers", kind := "interface",
    methods := [takes "AddValueChangeHandler" [("h", ui "ValueChangeHandler")]] },
  { name := "HasKeyUpHandlers", kind := "interface",
    methods := [takes "AddKeyUpHandler" [("h", ui "KeyUpHandler")]] }]

/-- What widgets can have: text, markup, children, alignment, a name. -/
def capabilities : List TypeSpec := [
  { name := "IsWidget", kind := "interface" },
  { name := "HasText", kind := "interface",
    methods := [takes "SetText" [("text", "string")], gives "Text" "string"] },
  { name := "HasHTML", kind := "interface",
    interfaces := [ui "HasText"],
    methods := [takes "SetHTML" [("html", "string")], gives "HTML" "string"] },
  { name := "HasWidgets", kind := "interface",
    methods := [takes "Add" [("w", ui "IsWidget")]] },
  { name := "HasOneWidget", kind := "interface",
    methods := [takes "SetWidget" [("w", ui "IsWidget")]] },
  { name := "HasEnabled", kind := "interface",
    methods := [takes "SetEnabled" [("enabled", "bool")]] },
  { name := "HasHorizontalAlignment", kind := "interface",
    methods := [takes "SetHorizontalAlignment" [("align", ui "HorizontalAlignmentConstant")]] },
  { name := "HasVerticalAlignment", kind := "interface",
    methods := [takes "SetVerticalAlignment" [("align", ui "VerticalAlignmentConstant")]] },
  { name := "HasAlignment", kind := "interface",
    interfaces := [ui "HasHorizontalAlignment", ui "HasVerticalAlignment"] },
  { name := "HasTreeItems", kind := "interface",
    methods := [takes "AddItem" [("item", ui "TreeItem")]] },
  { name := "HasName", kind := "interface",
    methods := [takes "SetName" [("name", "string")]] }]

/-- The classes widgets descend from, and the plain panels. -/
def bases : List TypeSpec := [
  { name := "UIObject", kind := "class",
    methods := [takes "SetTitle" [("title", "string")], takes "SetStyleName" [("style", "string")],
                takes "SetStylePrimaryName" [("style", "string")],
                takes "AddStyleName" [("style", "string")],
                takes "AddStyleDependentName" [("style", "string")],
                takes "EnsureDebugID" [("id", "string")], takes "SetWidth" [("width", "string")],
                takes "SetHeight" [("height", "string")],
                takes "SetSize" [("width", "string"), ("height", "string")],
                takes "SetPixelSize" [("width", "int"), ("height", "int")],
                takes "SetVisible" [("visible", "bool")], gives "Element" (dom "Element")] },
  { name := "Widget", kind := "class", super := ui "UIObject",
    interfaces := [ui "IsWidget"],
    methods := [takes "SetLayoutData" [("data", "any")]] },
  { name := "Composite", kind := "class", super := ui "Widget",
    methods := [takes "InitWidget" [("w", ui "Widget")]] },
  { name := "Panel", kind := "class", super := ui "Widget",
    interfaces := [ui "HasWidgets"],
    methods := [takes "Add" [("w", ui "IsWidget")]] },
  { name := "ComplexPanel", kind := "class", super := ui "Panel" },
  { name := "FlowPanel", kind := "class", super := ui "ComplexPanel",
    constructors := [takes "NewFlowPanel" []] },
  { name := "HTMLPanel", kind := "class", super := ui "ComplexPanel",
    constructors := [takes "NewHTMLPanel" [("html", "string")],
                     takes "NewHTMLPanelTag" [("tag", "string"), ("html", "string")]],
    methods := [takes "AddAndReplaceElement"
                  [("w", ui "IsWidget"), ("placeholder", dom "Element")]] },
  { name := "RenderablePanel", kind := "class", super := ui "ComplexPanel",
    constructors := [takes "NewRenderablePanel" [("html", safehtml "SafeHtml")]],
    methods := [takes "AddAndReplaceElement"
                  [("w", ui "IsWidget"), ("placeholder", dom "Element")]],
    traits := { renderable := true } },
  { name := "RenderableStamper", kind := "class",
    constructors := [takes "NewRenderableStamper" [("w", ui "IsWidget")]],
    methods := [maps "Render" [("id", "string")] (safehtml "SafeHtml"),
                takes "Claim" [("placeholder", dom "Element")]] },
  { name := "SimplePanel", kind := "class", super := ui "Panel",
    interfaces := [ui "HasOneWidget"],
    constructors := [takes "NewSimplePanel" []] },
  { name := "ScrollPanel", kind := "class", super := ui "SimplePanel",
    constructors := [takes "NewScrollPanel" []],
    methods := [takes "SetAlwaysShowScrollBars" [("show", "bool")]] },
  { name := "CaptionPanel", kind := "class", super := ui "SimplePanel",
    constructors := [takes "NewCaptionPanel" []],
    methods := [takes "SetCaptionText" [("text", "string")],
                takes "SetCaptionHTML" [("html", "string")]] }]

/-- Labels, buttons, boxes and images. -/
def controls : List TypeSpec := [
  { name := "Label", kind := "class", super := ui "Widget",
    interfaces := [ui "HasText", ui "HasHorizontalAlignment", ui "HasClickHandlers"],
    constructors := [takes "NewLabel" []],
    methods := [takes "SetText" [("text", "string")], takes "SetWordWrap" [("wrap", "bool")],
                takes "SetHorizontalAlignment" [("align", ui "HorizontalAlignmentConstant")],
                takes "AddClickHandler" [("h", ui "ClickHandler")]] },
  { name := "HTML", kind := "class", super := ui "Label",
    interfaces := [ui "HasHTML"],
    constructors := [takes "NewHTML" []] },
  { name := "InlineLabel", kind := "class", super := ui "Label",
    constructors := [takes "NewInlineLabel" []] },
  { name := "InlineHTML", kind := "class", super := ui "HTML",
    constructors := [takes "NewInlineHTML" []] },
  { name := "FocusWidget", kind := "class", super := ui "Widget",
    interfaces := [ui "HasEnabled", ui "HasClickHandlers", ui "HasKeyUpHandlers"],
    methods := [takes "SetTabIndex" [("index", "int")], takes "SetFocus" [("focused", "bool")],
                takes "SetEnabled" [("enabled", "bool")], takes "SetAccessKey" [("key", "int32")],
                takes "AddClickHandler" [("h", ui "ClickHandler")],
                takes "AddKeyUpHandler" [("h", ui "KeyUpHandler")]] },
  { name := "ButtonBase", kind := "class", super := ui "FocusWidget",
    interfaces := [ui "HasHTML"],
    methods := [takes "SetText" [("text", "string")], takes "SetHTML" [("html", "string")]] },
  { name := "Button", kind := "class", super := ui "ButtonBase",
    constructors := [takes "NewButton" []] },
  { name := "Anchor", kind := "class", super := ui "FocusWidget",
    interfaces := [ui "HasHTML", ui "HasName"],
    constructors := [takes "NewAnchor" []],
    methods := [takes "SetHref" [("href", "string")], takes "SetTarget" [("target", "string")]] },
  { name := "CheckBox", kind := "class", super := ui "ButtonBase",
    interfaces := [ui "HasName", ui "HasValueChangeHandlers"],
    constructors := [takes "NewCheckBox" []],
    methods := [takes "SetValue" [("value", "*bool")],
                takes "SetFormValue" [("value", "string")]] },
  { name := "RadioButton", kind := "class", super := ui "CheckBox",
    constructors := [takes "NewRadioButton" [("name", "string")]],
    traits := { constructor := "NewRadioButton", constructorParams := ["name"] } },
  { name := "CustomButton", kind := "class", super := ui "ButtonBase",
    methods := [takes "SetUpFace" [("face", "string")], takes "SetDownFace" [("face", "string")],
                takes "SetUpHoveringFace" [("face", "string")],
                takes "SetDownHoveringFace" [("face", "string")],
                takes "SetUpDisabledFace" [("face", "string")],
                takes "SetDownDisabledFace" [("face", "string")],
                takes "SetUpFaceImage" [("face", resources "ImageResource")],
                takes "SetDownFaceImage" [("face", resources "ImageResource")],
                takes "SetUpHoveringFaceImage" [("face", resources "ImageResource")],
                takes "SetDownHoveringFaceImage" [("face", resources "ImageResource")],
                takes "SetUpDisabledFaceImage" [("face", resources "ImageResource")],
                takes "SetDownDisabledFaceImage" [("face", resources "ImageResource")]] },
  { name := "PushButton", kind := "class", super := ui "CustomButton",
    constructors := [takes "NewPushButton" []] },
  { name := "ToggleButton", kind := "class", super := ui "CustomButton",
    constructors := [takes "NewToggleButton" []],
    methods := [takes "SetDown" [("down", "bool")]] },
  { name := "ValueBoxBase", kind := "class", super := ui "FocusWidget",
    interfaces := [ui "HasText", ui "HasName", ui "HasValueChangeHandlers", ui "HasChangeHandlers"],
    methods := [takes "SetText" [("text", "string")], takes "SetReadOnly" [("readOnly", "bool")],
                takes "SetValue" [("value", "string")],
                takes "SetAlignment" [("align", dom "TextAlign")]] },
  { name := "TextBox", kind := "class", super := ui "ValueBoxBase",
    constructors := [takes "NewTextBox" []],
    methods := [takes "SetMaxLength" [("length", "int")],
                takes "SetVisibleLength" [("length", "int")]] },
  { name := "PasswordTextBox", kind := "class", super := ui "TextBox",
    constructors := [takes "NewPasswordTextBox" []] },
  { name := "TextArea", kind := "class", super := ui "ValueBoxBase",
    constructors := [takes "NewTextArea" []],
    methods := [takes "SetVisibleLines" [("lines", "int")],
                takes "SetCharacterWidth" [("width", "int")]] },
  { name := "ListBox", kind := "class", super := ui "FocusWidget",
    interfaces := [ui "HasName", ui "HasChangeHandlers"],
    constructors := [takes "NewListBox" []],
    methods := [takes "AddItem" [("item", "string"), ("value", "string")],
                takes "AddItemText" [("item", "string")],
                takes "SetMultipleSelect" [("multiple", "bool")],
                takes "SetVisibleItemCount" [("count", "int")],
                takes "SetItemSelected" [("index", "int"), ("selected", "bool")]] },
  { name := "Image", kind := "class", super := ui "Widget",
    interfaces := [ui "HasClickHandlers"],
    constructors := [takes "NewImage" [],
                     takes "NewImageFromResource" [("resource", resources "ImageResource")]],
    methods := [takes "SetURL" [("url", safehtml "SafeUri")],
                takes "SetAltText" [("alt", "string")],
                takes "SetResource" [("resource", resources "ImageResource")],
                takes "SetVisibleRect"
                  [("left", "int"), ("top", "int"), ("width", "int"), ("height", "int")],
                takes "AddClickHandler" [("h", ui "ClickHandler")]] }]

/-- The parameters of a method that places a widget between two edges. -/
def edgeParams : List (Text × Text) :=
  [("w", ui "IsWidget"), ("a", "float64"), ("aUnit", ui "Unit"), ("b", "float64"),
   ("bUnit", ui "Unit")]

/-- Panels that lay out their children. -/
def layouts : List TypeSpec := [
  { name := "RequiresResize", kind := "interface" },
  { name := "DockLayoutPanel", kind := "class", super := ui "ComplexPanel",
    interfaces := [ui "RequiresResize"],
    constructors := [takes "NewDockLayoutPanel" [("unit", ui "Unit")]],
    methods := [takes "AddNorth" [("w", ui "IsWidget"), ("size", "float64")],
                takes "AddSouth" [("w", ui "IsWidget"), ("size", "float64")],
                takes "AddEast" [("w", ui "IsWidget"), ("size", "float64")],
                takes "AddWest" [("w", ui "IsWidget"), ("size", "float64")],
                takes "AddLineStart" [("w", ui "IsWidget"), ("size", "float64")],
                takes "AddLineEnd" [("w", ui "IsWidget"), ("size", "float64")],
                takes "Add" [("w", ui "IsWidget")]],
    traits := { constructor := "NewDockLayoutPanel", constructorParams := ["unit"] } },
  { name := "SplitLayoutPanel", kind := "class", super := ui "DockLayoutPanel",
    constructors := [takes "NewSplitLayoutPanel" [],
                     takes "NewSplitLayoutPanelWithSplitter" [("splitterSize", "int")]],
    traits := { constructor := "NewSplitLayoutPanelWithSplitter",
                constructorParams := ["splitterSize"] } },
  { name := "TabLayoutPanel", kind := "class", super := ui "ComplexPanel",
    interfaces := [ui "RequiresResize"],
    constructors := [takes "NewTabLayoutPanel" [("barHeight", "float64"), ("barUnit", ui "Unit")]],
    methods := [takes "AddTab" [("w", ui "IsWidget"), ("text", "string"), ("asHTML", "bool")],
                takes "AddTabWidget" [("w", ui "IsWidget"), ("tab", ui "IsWidget")],
                takes "SetAnimationDuration" [("millis", "int")]],
    traits := { constructor := "NewTabLayoutPanel",
                constructorParams := ["barHeight", "barUnit"] } },
  { name := "StackLayoutPanel", kind := "class", super := ui "ComplexPanel",
    interfaces := [ui "RequiresResize"],
    constructors := [takes "NewStackLayoutPanel" [("unit", ui "Unit")]],
    methods := [
                takes "AddStack"
                  [("w", ui "IsWidget"), ("header", "string"), ("asHTML", "bool"),
                   ("headerSize", "float64")],
                takes "AddStackWidget"
                  [("w", ui "IsWidget"), ("header", ui "IsWidget"), ("headerSize", "float64")]],
    traits := { constructor := "NewStackLayoutPanel", constructorParams := ["unit"] } },
  { name := "LayoutPanel", kind := "class", super := ui "ComplexPanel",
    interfaces := [ui "RequiresResize"],
    constructors := [takes "NewLayoutPanel" []],
    methods := [
                takes "SetWidgetLeftWidth" edgeParams,
                takes "SetWidgetLeftRight" edgeParams,
                takes "SetWidgetRightWidth" edgeParams,
                takes "SetWidgetTopHeight" edgeParams,
                takes "SetWidgetTopBottom" edgeParams,
                takes "SetWidgetBottomHeight" edgeParams] },
  { name := "AbsolutePanel", kind := "class", super := ui "ComplexPanel",
    constructors := [takes "NewAbsolutePanel" []],
    methods := [takes "AddAt" [("w", ui "IsWidget"), ("left", "int"), ("top", "int")]] },
  { name := "CellPanel", kind := "class", super := ui "ComplexPanel",
    methods := [takes "SetSpacing" [("spacing", "int")], takes "SetBorderWidth" [("width", "int")],
                takes "SetCellWidth" [("w", ui "IsWidget"), ("width", "string")],
                takes "SetCellHeight" [("w", ui "IsWidget"), ("height", "string")],
                takes "SetCellHorizontalAlignment"
                  [("w", ui "IsWidget"), ("align", ui "HorizontalAlignmentConstant")],
                takes "SetCellVerticalAlignment"
                  [("w", ui "IsWidget"), ("align", ui "VerticalAlignmentConstant")]] },
  { name := "HorizontalPanel", kind := "class", super := ui "CellPanel",
    interfaces := [ui "HasAlignment"],
    constructors := [takes "NewHorizontalPanel" []] },
  { name := "VerticalPanel", kind := "class", super := ui "CellPanel",
    interfaces := [ui "HasAlignment"],
    constructors := [takes "NewVerticalPanel" []] },
  { name := "DockPanel", kind := "class", super := ui "CellPanel",
    interfaces := [ui "HasAlignment"],
    constructors := [takes "NewDockPanel" []],
    methods := [takes "AddAt" [("w", ui "IsWidget"), ("direction", ui "Direction")]] },
  { name := "DisclosurePanel", kind := "class", super := ui "Composite",
    interfaces := [ui "HasOneWidget"],
    constructors := [takes "NewDisclosurePanel" []],
    methods := [takes "SetHeaderText" [("text", "string")], takes "SetHeader" [("w", ui "Widget")],
                takes "SetContent" [("w", ui "Widget")], takes "SetOpen" [("open", "bool")],
                takes "SetAnimationEnabled" [("enabled", "bool")],
                takes "SetHeaderImages"
                  [("open", resources "ImageResource"), ("closed", resources "ImageResource")]] },
  { name := "HeaderPanel", kind := "class", super := ui "Panel",
    constructors := [takes "NewHeaderPanel" []],
    methods := [takes "SetHeaderWidget" [("w", ui "Widget")],
                takes "SetContentWidget" [("w", ui "Widget")],
                takes "AddFooterItem" [("w", ui "Widget"), ("weight", "int")]],
    traits := { childTags := [⟨"header", "SetHeaderWidget", 1⟩, ⟨"content", "SetContentWidget", 1⟩,
                             ⟨"footer", "AddFooterItem", 0⟩] } }]

/-- Menus, grids and trees, and what generated programs use. -/
def lists : List TypeSpec := [
  { name := "MenuBar", kind := "class", super := ui "Widget",
    constructors := [takes "NewMenuBar" [("vertical", "bool")]],
    methods := [takes "AddItem" [("item", ui "MenuItem")],
                takes "AddSeparator" [("separator", ui "MenuItemSeparator")],
                takes "SetAutoOpen" [("autoOpen", "bool")],
                takes "SetAnimationEnabled" [("enabled", "bool")]],
    traits := { constructor := "NewMenuBar", constructorParams := ["vertical"] } },
  { name := "MenuItem", kind := "class", super := ui "UIObject",
    interfaces := [ui "HasHTML", ui "HasEnabled"],
    constructors := [takes "NewMenuItem" [("text", "string"), ("asHTML", "bool")]],
    methods := [takes "SetText" [("text", "string")], takes "SetHTML" [("html", "string")],
                takes "SetEnabled" [("enabled", "bool")],
                takes "SetSubMenu" [("menu", ui "MenuBar")],
                takes "SetScheduledCommand" [("cmd", ui "Command")]],
    traits := { constructor := "NewMenuItem", constructorParams := ["text", "asHTML"] } },
  { name := "MenuItemSeparator", kind := "class", super := ui "UIObject",
    constructors := [takes "NewMenuItemSeparator" []] },
  { name := "Grid", kind := "class", super := ui "Panel",
    constructors := [takes "NewGrid" []],
    methods := [takes "Resize" [("rows", "int"), ("columns", "int")],
                takes "SetWidgetAt" [("row", "int"), ("column", "int"), ("w", ui "IsWidget")],
                takes "SetTextAt" [("row", "int"), ("column", "int"), ("text", "string")],
                takes "SetHTMLAt" [("row", "int"), ("column", "int"), ("html", "string")],
                takes "SetRowStyleName" [("row", "int"), ("style", "string")],
                takes "SetCellStyleName" [("row", "int"), ("column", "int"), ("style", "string")],
                takes "SetCellSpacing" [("spacing", "int")],
                takes "SetCellPadding" [("padding", "int")]] },
  { name := "TreeItem", kind := "class", super := ui "UIObject",
    interfaces := [ui "HasTreeItems", ui "HasHTML"],
    constructors := [takes "NewTreeItem" []],
    methods := [takes "AddItem" [("item", ui "TreeItem")], takes "SetText" [("text", "string")],
                takes "SetHTML" [("html", "string")], takes "SetWidget" [("w", ui "Widget")],
                takes "SetState" [("open", "bool")]] },
  { name := "Tree", kind := "class", super := ui "Widget",
    interfaces := [ui "HasTreeItems"],
    constructors := [takes "NewTree" []],
    methods := [takes "AddItem" [("item", ui "TreeItem")],
                takes "SetAnimationEnabled" [("enabled", "bool")],
                takes "AddSelectionHandler" [("h", ui "SelectionHandler")],
                takes "AddOpenHandler" [("h", ui "OpenHandler")],
                takes "AddCloseHandler" [("h", ui "CloseHandler")]] },
  { name := "TempAttachment", kind := "class",
    methods := [takes "Detach" []] }]

/-! ## The library -/

/-- The packages in the order they are loaded. -/
def manifests : List Manifest :=
  [{ package := safehtmlPackage, name := "safehtml", types := safehtmlTypes },
   { package := domPackage, name := "dom",
     types := domTypes ++ elementTags.map fun e => elementType e.1,
     domTags := ([], dom "Element") ::
       elementTags.flatMap fun e => e.2.map fun tag => (tag, dom e.1) },
   { package := resourcesPackage, name := "resources", types := resourceTypes },
   { package := i18nPackage, name := "i18n",
     types := [{ name := "Messages", kind := "interface" }] },
   { package := uiPackage, name := "ui",
     types := events ++ capabilities ++ bases ++ controls ++ layouts ++ lists }]

/-- The primitives and the default library. -/
def catalog : Catalog := manifests.foldl Catalog.loading Catalog.bare

end ViewBinder.Library
