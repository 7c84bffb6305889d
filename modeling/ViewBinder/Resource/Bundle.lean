-- Bundles: the styles, images and data files a template declares, as methods of one generated
-- type. Every style also gets a type of its own with a method for each class, whose result is the
-- name the class has in the generated stylesheet.
import ViewBinder.Catalog.Basic
import ViewBinder.Diagnostic.Problem
import ViewBinder.FileTree
import ViewBinder.Program.Imports
import ViewBinder.Resource.DataUrl
import ViewBinder.Resource.ImageHeader
import ViewBinder.Resource.Stylesheet

namespace ViewBinder

/-- A style as a template declares it. -/
structure Style where
  field : Text
  /-- Stylesheet files next to the template. -/
  sources : List Text := []
  /-- The interface the style has to fulfil. -/
  type : Option TypeId := none
  css : Text := []
  deriving Repr

/-- An image as a template declares it. -/
structure Image where
  field : Text
  source : Text := []
  flip : Bool := false
  repetition : Text := []
  deriving Repr

/-- A data file as a template declares it. -/
structure DataFile where
  field : Text
  source : Text
  mediaType : Text := []
  deriving Repr

/-- A class of a style: its name, the method that gives it and the name in the program. -/
structure StyleClass where
  name : Text
  accessor : Text
  renamed : Text
  deriving DecidableEq, Repr

/-- A style with everything that is generated for it. -/
structure BundledStyle where
  style : Style
  method : Text
  sheet : Stylesheet
  classes : List StyleClass
  /-- The generated type. -/
  type : TypeId
  deriving Repr

/-- The new names of the classes. -/
def BundledStyle.renaming (s : BundledStyle) : List (Text × Text) :=
  s.classes.map fun c => (c.name, c.renamed)

/-- The stylesheet as the program holds it. -/
def BundledStyle.css (s : BundledStyle) : Text := Text.trim (s.sheet.rename s.renaming)

/-- An image or data file: the method that gives it, its type as the program writes it and the
expression that makes it. -/
structure BundledFile where
  method : Text
  typeRef : Text
  expr : Text
  deriving Repr

/-- The resources of one unit. -/
structure Bundle where
  /-- Import path of the generated program. -/
  package : Text := []
  packageName : Text := []
  /-- What the names of generated types begin with. -/
  lead : Text := []
  /-- Where files are read from, if there is such a place. -/
  files : Option FileSource := none
  /-- The generated type in the catalog. -/
  type : Option TypeId := none
  styles : List BundledStyle := []
  others : List BundledFile := []
  /-- The methods that are taken. -/
  methods : List Text := []
  deriving Repr

namespace Bundle

/-- The name of the generated type. -/
def name (b : Bundle) : Text := b.lead ++ "Bundle"

/-- The expression that makes a value of the generated type. -/
def initializer (b : Bundle) : Text := "&" ++ b.name ++ "\x7b\x7d"

/-- How many resources were declared. -/
def size (b : Bundle) : Nat := b.styles.length + b.others.length

/-- The name of the type generated for a style. -/
def styleTypeName (b : Bundle) (field : Text) : Text := b.lead ++ Text.exported field

/-- Takes a method for a field. -/
def claim (b : Bundle) (field : Text) : Except Problem (Text × Bundle) :=
  let method := Text.exported field
  if b.methods.contains method then .error (.resourceClash field method)
  else .ok (method, { b with methods := method :: b.methods })

/-- The content of a file. -/
def read (b : Bundle) (path : Text) : Except Problem Text :=
  match b.files with
  | none => .error (.noResourceDirectory path)
  | some files =>
    match files.read (Path.clean path) with
    | .content bytes => .ok bytes
    | .missing => .error (.missingResource path)
    | .refused reason => .error (.unreadableResource path reason)

/-! ## Styles -/

/-- What the names of a style's classes begin with in the program. -/
def classLead (b : Bundle) (field : Text) : Text :=
  Resource.fingerprint (b.package ++ "." ++ b.name ++ "." ++ field)

/-- Methods every style has. -/
def reservedAccessors : List Text := ["EnsureInjected", "Text"]

/-- The classes of a style, `done` before the others; each needs a method of its own. -/
def bundleClasses (lead field : Text) (done : List StyleClass) :
    List Text → Except Problem (List StyleClass)
  | [] => .ok done
  | name :: rest =>
    let accessor := Text.exported name
    if reservedAccessors.contains accessor then .error (.reservedClass name field accessor)
    else match done.find? (·.accessor == accessor) with
      | some other => .error (.classClash other.name name field accessor)
      | none => bundleClasses lead field (done ++ [⟨name, accessor, lead ++ "-" ++ name⟩]) rest

/-- The text of all sources of a style, one after the other, and its own text at the end. -/
def styleText (b : Bundle) (s : Style) : Except Problem Text := do
  let files ← s.sources.mapM b.read
  return (files.flatMap fun css => css ++ [newline]) ++ s.css

/-- The first method of an interface that no class of a style stands for. -/
def lackingMethod? (c : Catalog) (classes : List StyleClass) (type : TypeId) : Option Text :=
  ((c.hierarchy type).flatMap fun t => (c.decl t).methods).findSome? fun m =>
    if m.params.isEmpty && !reservedAccessors.contains m.name && c.isText m.returns &&
        !classes.any (·.accessor == m.name) then some m.name
    else none

/-- The interface of a style must be one, and every method of it that gives a text must be a class
of the style. -/
def checkStyleType (c : Catalog) (field : Text) (classes : List StyleClass) (type : TypeId) :
    Except Problem Unit :=
  if (c.decl type).kind != .interface then .error (.styleNotInterface (c.decl type).key)
  else match lackingMethod? c classes type with
    | some method => .error (.styleLacksClass field method (c.decl type).key)
    | none => .ok ()

/-! ## Images -/

/-- Extensions an image without a source is looked for with. -/
def imageExtensions : List Text := [".png", ".gif", ".jpg", ".jpeg"]

/-- The ways an image can be repeated. -/
def repetitions : List (Text × Text) :=
  [("None", "RepeatNone"), ("Horizontal", "RepeatHorizontal"), ("Vertical", "RepeatVertical"),
   ("Both", "RepeatBoth")]

/-- The file of an image: the one it names, or one with its name. -/
def imageSource (b : Bundle) (i : Image) : Except Problem Text :=
  if !i.source.isEmpty then .ok i.source
  else match b.files.bind fun files =>
      (imageExtensions.map (i.field ++ ·)).find? files.has with
    | some source => .ok source
    | none => .error (.noImageSource i.field)

/-- The constant for the way an image is repeated; none if it is not said. -/
def repetitionOf (i : Image) : Except Problem (Option Text) :=
  if i.repetition.isEmpty then .ok none
  else match repetitions.lookup i.repetition with
    | some ident => .ok (some ident)
    | none => .error (.unknownRepeatStyle i.repetition i.field)

/-- The header of an image file. -/
def imageHeader (source content : Text) : Except Problem ImageHeader :=
  match ImageHeader.read content with
  | .ok header => .ok header
  | .error fault => .error (.undecodableImage source fault.message)

/-- The expression that makes an image. -/
def imageExpr (package : Text) (i : Image) (repetition : Option Text) (h : ImageHeader)
    (content : Text) : Text :=
  let url := Resource.dataUrl ("image/" ++ h.format) content
  let args := Text.join ", "
    [Text.quote i.field, Text.quote url, Text.ofNat h.width, Text.ofNat h.height]
  let flip := if i.flip then [Text.ofString "FlipRtl: true"] else []
  let options := flip ++ repetition.toList.map fun ident =>
    "RepeatStyle: " ++ package ++ "." ++ ident
  if options.isEmpty then package ++ ".NewImageResource(" ++ args ++ ")"
  else
    package ++ ".NewImageResourceWithOptions(" ++ args ++ ", " ++ package ++ ".ImageOptions\x7b" ++
      Text.join ", " options ++ "\x7d)"

/-- The expression that makes a data file. -/
def dataExpr (package : Text) (f : DataFile) (content : Text) : Text :=
  let mediaType := if f.mediaType.isEmpty then Resource.mediaTypeOf f.source else f.mediaType
  package ++ ".NewDataResource(" ++ Text.quote f.field ++ ", " ++
    Text.quote (Resource.dataUrl mediaType content) ++ ")"

/-! ## Writing -/

/-- A method without parameters that returns an expression. -/
def renderMethod (owner method result expr : Text) : Text :=
  "func (*" ++ owner ++ ") " ++ method ++ "() " ++ result ++ " \x7b\n\treturn " ++ expr ++ "\n\x7d"

/-- The type generated for a style, its stylesheet and its methods. -/
def renderStyle (package name : Text) (s : BundledStyle) : List Text :=
  let sheet := Text.uncapitalize name ++ "CSS"
  [ "// " ++ name ++ " is the generated style of field " ++ Text.quote s.style.field ++
      ".\ntype " ++ name ++ " struct\x7b\x7d",
    "const " ++ sheet ++ " = " ++ Text.quote s.css,
    renderMethod name "EnsureInjected" "bool" (package ++ ".InjectStyle(" ++ sheet ++ ")"),
    renderMethod name "Text" "string" sheet ] ++
  s.classes.map fun c => renderMethod name c.accessor "string" (Text.quote c.renamed)

end Bundle

end ViewBinder
