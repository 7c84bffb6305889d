-- The standard layout of programs: no blanks at the ends of lines, no two empty lines in a row,
-- variables of one block with their types in one column, statements as
-- `ViewBinder.Layout.Statement` writes them, and typographic quotes in the comments of
-- declarations.
import ViewBinder.Program.Layout.Reader
import ViewBinder.Text.Utf8

namespace ViewBinder.Layout

/-! ## Lines -/

/-- Where a byte of a program stands. -/
inductive Context where
  | code
  | quoted
  /-- In quotes, behind a backslash. -/
  | escaped
  /-- In back quotes, where lines may end. -/
  | raw
  | comment
  deriving DecidableEq, Repr

/-- The context behind a byte. -/
def Context.after (context : Context) (b : UInt8) (rest : Text) : Context :=
  match context with
  | .code =>
    if b == 0x22 then .quoted
    else if b == 0x60 then .raw
    else if b == '/'.toUInt8 && Text.startsWith rest "/" then .comment
    else .code
  | .quoted => if b == 0x5C then .escaped else if b == 0x22 then .code else .quoted
  | .escaped => .quoted
  | .raw => if b == 0x60 then .code else .raw
  | .comment => .comment

/-- The lines of a program; a text in back quotes does not end its line. -/
def linesFrom (context : Context) : Text → List Text
  | [] => [[]]
  | b :: rest =>
    if b == 0x0A && context != .raw then [] :: linesFrom .code rest
    else match linesFrom (context.after b rest) rest with
      | line :: lines => (b :: line) :: lines
      | [] => [[b]]

/-- A line without the blanks at its end. -/
def trimEnd (line : Text) : Text :=
  Text.ofRunes (Text.dropBlanks line.runes.reverse).reverse

/-- Lines with at most one empty line between two others. -/
def dropRepeatedBlanks : List Text → List Text
  | [] => []
  | line :: rest =>
    match dropRepeatedBlanks rest with
    | [] => [line]
    | next :: lines => if line.isEmpty && next.isEmpty then next :: lines else line :: next :: lines

/-! ## Variables and statements -/

/-- The tabs in front of a line. -/
def indentOf (line : Text) : Nat := (line.takeWhile (· == 0x09)).length

/-- The name in the line of a variable. -/
def variableName (line : Text) : Text := (line.drop (indentOf line)).takeWhile (· != 0x20)

/-- How many characters the name of a variable has. -/
def nameWidth (line : Text) : Nat := (variableName line).runes.length

/-- The line of a variable with its type behind `width` characters and a blank. -/
def placeType (width : Nat) (line : Text) : Text :=
  let indent := indentOf line
  let name := variableName line
  let type := (line.drop (indent + name.length)).dropWhile (· == 0x20)
  tabs indent ++ name ++ List.replicate (width + 1 - nameWidth line) 0x20 ++ type

/-- The variables of a block with their types in one column. -/
def alignTypes (lines : List Text) : List Text :=
  let width := (lines.map nameWidth).foldl max 0
  lines.map (placeType width)

/-- The line of a statement as it is laid out. -/
def layStatement (line : Text) : Text :=
  let indent := indentOf line
  match Statement.read (line.drop indent) with
  | some s => tabs indent ++ s.write indent
  | none => line

/-- Which part of a program a line belongs to. -/
inductive Region where
  | outside
  | body
  /-- A block of variables, with the lines that were read. -/
  | variables (lines : List Text)
  deriving Repr

/-- The line opens the body of a function. -/
def opensFunction (line : Text) : Bool :=
  Text.startsWith line "func " && Text.endsWith line "\x7b"

/-- Lays out the bodies of functions. -/
def layBodies : Region → List Text → List Text
  | .variables lines, [] => lines
  | _, [] => []
  | .outside, line :: rest =>
    line :: layBodies (if opensFunction line then .body else .outside) rest
  | .body, line :: rest =>
    if line == "\x7d" then line :: layBodies .outside rest
    else if line.drop (indentOf line) == "var (" then line :: layBodies (.variables []) rest
    else layStatement line :: layBodies .body rest
  | .variables lines, line :: rest =>
    if line.drop (indentOf line) == ")" then
      alignTypes lines ++ line :: layBodies .body rest
    else layBodies (.variables (lines ++ [line])) rest

/-! ## Comments -/

/-- Two back quotes or two apostrophes become a typographic quote; three back quotes or more
stay. -/
def curlQuotes : Nat → Text → Text
  | 0, t => t
  | _, [] => []
  | fuel + 1, b :: rest =>
    let run := (b :: rest).takeWhile (· == 0x60)
    if run.length == 2 then "“" ++ curlQuotes fuel (rest.drop 1)
    else if 2 < run.length then run ++ curlQuotes fuel ((b :: rest).drop run.length)
    else if Text.startsWith (b :: rest) "''" then "”" ++ curlQuotes fuel (rest.drop 1)
    else b :: curlQuotes fuel rest

/-- The line is a comment of its own. -/
def isComment (line : Text) : Bool := Text.startsWith line "//"

/-- The words a declaration begins with. -/
def declarationWords : List Text := ["type ", "func ", "const ", "var ", "import ", "package "]

/-- The line begins a declaration. -/
def isDeclaration (line : Text) : Bool := declarationWords.any (Text.startsWith line)

/-- Lays out the comments right in front of declarations, and tells whether the first line belongs
to a declaration. -/
def layComments : List Text → List Text × Bool
  | [] => ([], false)
  | line :: rest =>
    let (lines, attached) := layComments rest
    if isComment line then
      ((if attached then curlQuotes line.length line else line) :: lines, attached)
    else (line :: lines, isDeclaration line)

/-! ## Programs -/

/-- A program in the standard layout. -/
def format (program : Text) : Text :=
  let lines := dropRepeatedBlanks ((linesFrom .code program).map trimEnd)
  Text.join "\n" (layComments (layBodies .outside lines)).1

end ViewBinder.Layout
