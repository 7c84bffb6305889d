-- Generated programs: what a template compiles to, before it is written down. Statements come in
-- four phases, and the program ends by returning its root. It is written into a buffer of indented
-- lines: text is added to the last line, and a line that stays empty gets no indentation.
import ViewBinder.Program.Imports
import ViewBinder.Text.Utf8

namespace ViewBinder

/-! ## Lines -/

/-- A line with the number of tabs in front of it. -/
structure Line where
  text : Text := []
  indent : Int
  deriving DecidableEq, Repr

/-- Lines under construction. -/
structure Lines where
  /-- The finished lines, the last one first. -/
  above : List Line := []
  current : Line
  /-- The indentation of lines still to come. -/
  indent : Int
  deriving DecidableEq, Repr

namespace Lines

/-- One empty line. -/
def empty (indent : Int) : Lines := { current := ⟨[], indent⟩, indent }

/-- Nothing stands on the last line. -/
def lineIsEmpty (ls : Lines) : Bool := ls.current.text.isEmpty

/-- Adds text to the last line. -/
def print (ls : Lines) (part : Text) : Lines :=
  { ls with current := { ls.current with text := ls.current.text ++ part } }

/-- Adds text to the last line and begins a new one. -/
def println (ls : Lines) (part : Text) : Lines :=
  let ls := ls.print part
  { ls with above := ls.current :: ls.above, current := ⟨[], ls.indent⟩ }

/-- Adds several lines. -/
def printAll (ls : Lines) (parts : List Text) : Lines := parts.foldl println ls

/-- Adds an empty line, unless one was just added. -/
def blank (ls : Lines) : Lines :=
  match ls.above with
  | last :: _ => if last.text.isEmpty && ls.lineIsEmpty then ls else ls.println []
  | [] => ls.println []

/-- Removes the last line if it is empty and not the only one. -/
def dropEmptyLast (ls : Lines) : Lines :=
  match ls.above with
  | last :: above => if ls.lineIsEmpty then { ls with above, current := last } else ls
  | [] => ls

/-- Changes the indentation, also that of a last line which is still empty. -/
def shift (ls : Lines) (by_ : Int) : Lines :=
  let indent := ls.indent + by_
  { ls with indent, current := if ls.lineIsEmpty then { ls.current with indent } else ls.current }

/-- One line as it is written. -/
def lineText (l : Line) : Text :=
  if l.text.isEmpty then [] else List.replicate l.indent.toNat '\t'.toUInt8 ++ l.text

/-- The lines as one text. -/
def render (ls : Lines) : Text := Text.join "\n" ((ls.current :: ls.above).reverse.map lineText)

end Lines

/-! ## Programs -/

/-- A local variable with its type as the program writes it. -/
structure Declaration where
  name : Text
  type : Text
  deriving DecidableEq, Repr

/-- A generated program. -/
structure Program where
  package : Text
  /-- The template it was made from. -/
  source : Text
  imports : Imports
  binderName : Text
  ownerType : Text
  rootType : Text
  rootExpr : Text
  declarations : List Declaration := []
  construct : List Text := []
  attach : List Text := []
  detach : List Text := []
  trailing : List Text := []
  /-- Locals that nothing else reads. -/
  unused : List Text := []
  /-- Declarations beside the binder. -/
  extra : List Text := []
  deriving Repr

namespace Program

/-- The name of the binder of a template: its file name without the suffix, or up to the first dot
if no suffix is given. -/
def binderNameOf (url suffix : Text) : Text :=
  let base := Path.base url
  let base :=
    if !suffix.isEmpty then Text.dropBack base suffix
    else match base.idxOf? '.'.toUInt8 with
      | some 0 => base
      | some i => base.take i
      | none => base
  Text.exported (Text.sanitize base) ++ "Binder"

/-- A reference to a fresh copy of an expression's value. -/
def box (type expr : Text) : Text :=
  "func() " ++ type ++ " \x7b v := " ++ expr ++ "; return &v \x7d()"

/-- Every statement in the order it is written. -/
def statements (p : Program) : List Text := p.construct ++ p.attach ++ p.detach ++ p.trailing

/-- An import as it is written; the name is left out when the path ends in it. -/
def importLine (entry : Text × Text) : Text :=
  let (path, name) := entry
  if name == (Path.elements path).getLastD [] then Text.quote path
  else name ++ " " ++ Text.quote path

/-- A local variable as it is declared. -/
def declarationLine (d : Declaration) : Text := "\t" ++ d.name ++ " " ++ d.type

/-- The block of local variables. -/
def declarationLines (ds : List Declaration) : List Text :=
  if ds.isEmpty then []
  else Text.ofString "var (" :: (ds.map declarationLine ++ [Text.ofString ")"])

/-- A statement that reads a local and does nothing. -/
def discardLine (name : Text) : Text := "_ = " ++ name

/-- The parts of the body that hold something. -/
def bodyParts (p : Program) : List (List Text) :=
  [declarationLines p.declarations, p.construct, p.attach, p.detach, p.trailing,
    p.unused.map discardLine].filter (!·.isEmpty)

/-- Parts of the body with an empty line between each two. -/
def addParts (ls : Lines) : List (List Text) → Lines
  | [] => ls
  | part :: rest => rest.foldl (fun ls part => ls.blank.printAll part) (ls.printAll part)

/-- The lines in front of the binder. -/
def headLines (p : Program) (ls : Lines) : Lines :=
  let ls := ls.println "// Code generated by uibind. DO NOT EDIT."
  let ls := if p.source.isEmpty then ls else ls.println ("// source: " ++ p.source)
  let ls := ((ls.blank).println ("package " ++ p.package)).blank
  match p.imports.list with
  | [] => ls
  | imports =>
    let ls := (ls.println "import (").shift 1
    let ls := (ls.printAll (imports.map importLine)).shift (-1)
    (ls.println ")").blank

/-- The line that opens the body of the binder. -/
def openingLine (p : Program) : Text :=
  "func (" ++ p.binderName ++ ") CreateAndBindUI(owner " ++ p.ownerType ++ ") " ++ p.rootType ++
    " \x7b"

/-- The program as it is written, markers included. -/
def render (p : Program) : Text :=
  let ls := headLines p (Lines.empty 0)
  let ls := ls.println
    ("// " ++ p.binderName ++ " builds the widget tree declared in " ++ p.source ++ ".")
  let ls := (ls.println ("type " ++ p.binderName ++ " struct\x7b\x7d")).blank
  let ls := ls.println "// CreateAndBindUI constructs the template and binds its fields to owner."
  let ls := (ls.println p.openingLine).shift 1
  let ls := (addParts ls p.bodyParts).println ("return " ++ p.rootExpr)
  let ls := (ls.shift (-1)).println "\x7d"
  let ls := p.extra.foldl (fun ls extra => ls.blank.println extra) ls
  ls.dropEmptyLast.render ++ "\n"

end Program

end ViewBinder
