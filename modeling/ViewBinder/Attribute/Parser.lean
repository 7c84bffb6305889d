-- Attribute parsers: how the text of an attribute becomes an expression of the types that are
-- expected. Literals are checked and written in the one spelling their value has; references are
-- recorded and stand as markers.
import ViewBinder.Attribute.Segment
import ViewBinder.Draft
import ViewBinder.Library
import ViewBinder.Number.Literal
import ViewBinder.Program.Basic

namespace ViewBinder

/-- How an attribute value is read. -/
inductive AttributeParser where
  /-- One reference and nothing else. -/
  | strict (types : List (Option TypeId))
  /-- `true`, `false` or a reference. -/
  | boolean (type : Option TypeId)
  /-- A number literal or a reference, which is converted. -/
  | numeric (type : TypeId)
  /-- What another parser reads, by reference. -/
  | boxed (value : AttributeParser) (type : TypeId)
  /-- Quoted text with references between. -/
  | string (type : Option TypeId)
  /-- Two whole numbers with a comma between. -/
  | intPair (value : AttributeParser)
  /-- A constant of an enumeration or a reference. -/
  | enumeration (type : TypeId)
  /-- A name of a fixed table or a reference. -/
  | constant (type : TypeId) (names : List (Text × Text))
  /-- A number with a unit. -/
  | length (number : AttributeParser) (unit : TypeId)
  /-- Text trusted as markup, or a reference. -/
  | safeHtml (text : AttributeParser) (type : TypeId)
  /-- An address, or a reference. -/
  | safeUri (text : AttributeParser) (type : TypeId)

namespace Attribute

/-! ## Tables -/

/-- The constants of horizontal alignment. -/
def horizontalAlignments : List (Text × Text) :=
  [("ALIGN_LEFT", "AlignLeft"), ("ALIGN_CENTER", "AlignCenter"), ("ALIGN_RIGHT", "AlignRight"),
   ("ALIGN_JUSTIFY", "AlignJustify"), ("ALIGN_DEFAULT", "AlignDefault"),
   ("ALIGN_LOCALE_START", "AlignLocaleStart"), ("ALIGN_LOCALE_END", "AlignLocaleEnd")]

/-- The constants of vertical alignment. -/
def verticalAlignments : List (Text × Text) :=
  [("ALIGN_TOP", "AlignTop"), ("ALIGN_MIDDLE", "AlignMiddle"), ("ALIGN_BOTTOM", "AlignBottom")]

/-- The constants of text alignment. -/
def textAlignments : List (Text × Text) :=
  [("LEFT", "TextAlignLeft"), ("CENTER", "TextAlignCenter"), ("RIGHT", "TextAlignRight"),
   ("JUSTIFY", "TextAlignJustify")]

/-- A table in which each constant also has a short name: in lower case and without its lead. -/
def withShortNames (table : List (Text × Text)) : List (Text × Text) :=
  table ++ table.map fun e => (Text.toLower (Text.dropFront e.1 "ALIGN_"), e.2)

/-- The units of lengths. -/
def units : List (Text × Text) :=
  [("px", "UnitPX"), ("%", "UnitPCT"), ("pct", "UnitPCT"), ("em", "UnitEM"), ("ex", "UnitEX"),
   ("pt", "UnitPT"), ("pc", "UnitPC"), ("in", "UnitIN"), ("cm", "UnitCM"), ("mm", "UnitMM")]

/-! ## Lengths -/

/-- White space around the parts of a length. -/
def isGap (b : UInt8) : Bool := b == 0x20 || b == 0x09 || b == 0x0A || b == 0x0C || b == 0x0D

/-- A letter of a unit. -/
def isUnitByte (b : UInt8) : Bool :=
  Text.isLowerByte b || Text.isUpperByte b || b == '%'.toUInt8

/-- A group in braces at the front, and the rest. -/
def braces? (t : Text) : Option (Text × Text) :=
  if Text.startsWith t "\x7b" then
    (t.idxOf? Segment.closeBrace).map fun n => (t.take (n + 1), t.drop (n + 1))
  else none

/-- The exponent at the front, if a whole one is there. -/
def exponentRun (t : Text) : Text :=
  match t with
  | e :: rest =>
    if Number.isExponentMark e then
      let sign := rest.take 1 |>.filter fun b => b == '+'.toUInt8 || b == '-'.toUInt8
      let digits := (rest.drop sign.length).takeWhile Text.isDigitByte
      if digits.isEmpty then [] else e :: sign ++ digits
    else []
  | [] => []

/-- The number at the front, and the rest: digits, or a point with digits behind it, then an
optional exponent. -/
def numberRun? (t : Text) : Option (Text × Text) :=
  let sign := t.take 1 |>.filter fun b => b == '+'.toUInt8 || b == '-'.toUInt8
  let rest := t.drop sign.length
  let whole := rest.takeWhile Text.isDigitByte
  let rest := rest.drop whole.length
  let fraction : Text :=
    if Text.startsWith rest "." then
      let digits := (rest.drop 1).takeWhile Text.isDigitByte
      if digits.isEmpty then [] else '.'.toUInt8 :: digits
    else []
  if whole.isEmpty && fraction.isEmpty then none
  else
    let rest := rest.drop fraction.length
    let exponent := exponentRun rest
    some (sign ++ whole ++ fraction ++ exponent, rest.drop exponent.length)

/-- The number and the unit of a length; each may be a reference, and the unit may be missing. -/
def lengthParts? (value : Text) : Option (Text × Text) := do
  let start := value.dropWhile isGap
  let (number, rest) ← braces? start <|> numberRun? start
  let rest := rest.dropWhile isGap
  let (unit, rest) :=
    match braces? rest with
    | some parts => parts
    | none => (rest.takeWhile isUnitByte, rest.dropWhile isUnitByte)
  if (rest.dropWhile isGap).isEmpty then some (number, unit) else none

/-! ## Reading values -/

/-- A type as messages name it. -/
def displayName (c : Catalog) (t : Option TypeId) : Text :=
  if c.isText t then "String" else c.simpleName t

/-- The value is no literal of the types. -/
def failParse {α : Type} (e : Nat) (value : Text) (types : List (Option TypeId)) :
    Work Draft α := do
  let c := (← get).catalog
  Draft.failOn e fun d => .unparsable value (types.map (displayName c)) (d.tag e)

/-- The value is empty. -/
def failEmpty {α : Type} (e : Nat) (type : Option TypeId) : Work Draft α := do
  let c := (← get).catalog
  Draft.failOn e fun d => .emptyValue [displayName c type] (d.tag e)

/-- Turns a value into an expression, segment by segment: literals by `literal`, references recorded
and wrapped by `reference`. -/
def convert (e : Nat) (value : Text) (types : List (Option TypeId)) (literal : Text → Text)
    (reference : Text → Work Draft Text) (glue : Text) : Work Draft Text := do
  let parts ← (Segment.split value).mapM fun segment =>
    match segment with
    | .literal t => pure (literal t)
    | .reference path => do
      if !Segment.isLegalPath path then
        Draft.failOn e fun d => .illegalReference path (d.tag e)
      reference (← Draft.refer e path types)
  return Text.join glue (parts.filter (!·.isEmpty))

/-- The value must be one reference. -/
def singleReference (e : Nat) (value : Text) (wrap : Text → Text)
    (types : List (Option TypeId)) : Work Draft Text := do
  if !Segment.isSingleReference value then failParse e value types
  else convert e (Text.trim value) types (fun _ => []) (fun marker => pure (wrap marker)) []

/-- The expression for an attribute value. -/
def parse (parser : AttributeParser) (e : Nat) (value : Text) : Work Draft Text := do
  let c := (← get).catalog
  let trimmed := Text.trim value
  match parser with
  | .strict types => singleReference e value id types
  | .boolean type =>
    if trimmed == "true" || trimmed == "false" then return trimmed
    else if trimmed.isEmpty then failEmpty e type
    else singleReference e value id [type]
  | .numeric type =>
    let name := (c.decl type).name
    if trimmed.isEmpty then failEmpty e type
    else match Number.literal? name value with
      | some literal => return literal
      | none => singleReference e value (fun marker => name ++ "(" ++ marker ++ ")") [type]
  | .boxed inner type =>
    if Segment.isSingleReference value then singleReference e value id [type]
    else
      let expr ← parse inner e value
      let unboxed := c.simpleName (c.decl type).unboxed
      return Program.box (c.decl type).name (unboxed ++ "(" ++ expr ++ ")")
  | .string type =>
    if value.isEmpty then return "\"\""
    else convert e value [type] Text.quote pure " + "
  | .intPair inner =>
    match value.splitOn ','.toUInt8 with
    | [first, second] =>
      let x ← parse inner e first
      let y ← parse inner e second
      return x ++ ", " ++ y
    | _ => Draft.failOn e fun d => .notIntPair value (d.tag e)
  | .enumeration type =>
    let constants := (c.decl type).constants
    if trimmed.isEmpty then failEmpty e type
    else match constants.find? (·.name == trimmed) with
      | some constant => Draft.qualify type constant.ident
      | none =>
        if Segment.isSingleReference value then singleReference e value id [type]
        else Draft.failOn e fun d =>
          .notConstant value (c.decl type).name (constants.map (·.name)) (d.tag e)
  | .constant type names =>
    if trimmed.isEmpty then failEmpty e type
    else match (withShortNames names).lookup trimmed with
      | some ident => Draft.qualify type ident
      | none => singleReference e value id [type]
  | .length number unit =>
    match lengthParts? value with
    | none => Draft.failOn e fun d => .notLength value (d.tag e)
    | some (digits, written) =>
      let expr ← parse number e digits
      let written := Text.trim written
      if written.isEmpty then return expr ++ ", " ++ (← Draft.qualify unit "UnitPX")
      else if Segment.isSingleReference written then
        return expr ++ ", " ++ (← singleReference e written id [unit])
      else match units.lookup (Text.toLower written) with
        | some ident => return expr ++ ", " ++ (← Draft.qualify unit ident)
        | none => Draft.failOn e fun d => .unknownUnit written value (d.tag e)
  | .safeHtml text type =>
    if Segment.isSingleReference value then singleReference e value id [type]
    else
      let expr ← parse text e value
      return (← Draft.qualify type "FromTrustedString") ++ "(" ++ expr ++ ")"
  | .safeUri text type =>
    if Segment.isSingleReference value then singleReference e value id [type]
    else if !Segment.hasReference value then
      return (← Draft.qualify type "URIFromConstant") ++ "(" ++ Text.quote value ++ ")"
    else
      let expr ← parse text e value
      return (← Draft.qualify type "URIFromString") ++ "(" ++ expr ++ ")"

/-- Without a form of its own for literals, a value must be one reference. -/
theorem parse_strict (types : List (Option TypeId)) (e : Nat) (value : Text) :
    parse (.strict types) e value = singleReference e value id types := by
  unfold parse
  rfl

/-! ## Choosing a parser -/

/-- Parsers by the keys of the types they read. -/
abbrev Parsers := List (Text × AttributeParser)

/-- The keys of some types with commas between them. -/
def typesKey (c : Catalog) (types : List (Option TypeId)) : Text := Text.join "," (types.map c.key)

/-- The parsers of a numeric primitive and of its boxed counterpart. -/
def numericParsers (c : Catalog) (name : Text) : Parsers :=
  match c.find? [] name, c.find? [] ("*" ++ name) with
  | some plain, some boxed =>
    [(name, .numeric plain), ("*" ++ name, .boxed (.numeric plain) boxed)]
  | _, _ => []

/-- A parser for a type of the library, if the catalog has the type. -/
def libraryParser (c : Catalog) (key : Text) (parser : TypeId → AttributeParser) : Parsers :=
  match c.lookup? key with
  | some t => [(key, parser t)]
  | none => []

/-- The parser of lengths, if the catalog has units. -/
def lengthParser (c : Catalog) : Parsers :=
  match c.find? [] "float64", c.lookup? (Library.ui "Unit") with
  | some float, some unit =>
    [(typesKey c [some float, some unit], .length (.numeric float) unit)]
  | _, _ => []

/-- The parsers of a catalog. -/
def Parsers.of (c : Catalog) : Parsers :=
  let text := AttributeParser.string (c.find? [] "string")
  let bool := AttributeParser.boolean (c.find? [] "bool")
  let boxedBool := libraryParser c "*bool" (.boxed bool)
  let pair : Parsers := match c.find? [] "int" with
    | some int => [(Text.ofString "int,int", .intPair (.numeric int))]
    | none => []
  [(Text.ofString "bool", bool), (Text.ofString "string", text)] ++
    numericNames.flatMap (numericParsers c) ++ boxedBool ++ pair ++ lengthParser c ++
    libraryParser c (Library.ui "HorizontalAlignmentConstant") (.constant · horizontalAlignments) ++
    libraryParser c (Library.ui "VerticalAlignmentConstant") (.constant · verticalAlignments) ++
    libraryParser c (Library.dom "TextAlign") (.constant · textAlignments) ++
    libraryParser c (Library.safehtml "SafeHtml") (.safeHtml text) ++
    libraryParser c (Library.safehtml "SafeUri") (.safeUri text)

/-- The parser for some types. Without one of their own, a single enumeration is read by its
constants and everything else by reference only. -/
def Parsers.get (ps : Parsers) (c : Catalog) (types : List (Option TypeId)) : AttributeParser :=
  match ps.lookup (typesKey c types) with
  | some parser => parser
  | none =>
    match types with
    | [some t] => if c.isEnumeration (some t) then .enumeration t else .strict types
    | _ => .strict types

/-- The parsers with another one for some types. -/
def Parsers.register (ps : Parsers) (c : Catalog) (parser : AttributeParser)
    (types : List (Option TypeId)) : Parsers :=
  (typesKey c types, parser) :: ps

/-! ## Reading attributes -/

/-- Takes and reads an attribute that may be missing. -/
def take? (ps : Parsers) (e : Nat) (name : Text) (types : List (Option TypeId)) :
    Work Draft (Option Text) := do
  match ← Markup.Document.takeRaw e name with
  | none => return none
  | some value => return some (← parse (ps.get (← get).catalog types) e value)

/-- Takes and reads an attribute, or gives the default. -/
def takeDefault (ps : Parsers) (e : Nat) (name otherwise : Text) (types : List (Option TypeId)) :
    Work Draft Text := do
  return (← take? ps e name types).getD otherwise

/-- Takes and reads an attribute that must be there and must not be blank. -/
def takeRequired (ps : Parsers) (e : Nat) (name : Text) (types : List (Option TypeId)) :
    Work Draft Text := do
  let value ← Markup.Document.takeRequired e name
  let c := (← get).catalog
  if (Text.trim value).isEmpty then
    Draft.failOn e fun d => .emptyAttribute (types.map (displayName c)) name (d.tag e)
  else parse (ps.get c types) e value

end Attribute

end ViewBinder
