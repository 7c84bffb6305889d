-- Attribute values as segments: literal text and references in braces. A doubled opening brace
-- stands for one brace, and a brace that is never closed is text.
import ViewBinder.Text.Name

namespace ViewBinder

/-- A piece of an attribute value. -/
inductive Segment where
  | literal (t : Text)
  | reference (path : Text)
  deriving DecidableEq, Repr

namespace Segment

/-- The text of a segment. -/
def text : Segment → Text
  | literal t => t
  | reference path => path

/-- The segment is a reference. -/
def isReference : Segment → Bool
  | literal _ => false
  | reference _ => true

/-- The opening brace. -/
def openBrace : UInt8 := '\x7b'.toUInt8

/-- The closing brace. -/
def closeBrace : UInt8 := '\x7d'.toUInt8

/-- A byte in front of some segments; it joins the literal it touches. -/
def addByte (b : UInt8) : List Segment → List Segment
  | literal t :: rest => literal (b :: t) :: rest
  | segments => literal [b] :: segments

/-- Bytes in front of some segments. -/
def addText (t : Text) (segments : List Segment) : List Segment := t.foldr addByte segments

/-- The segments from the first byte not yet passed on; `skip` bytes belong to the segment
before. -/
def splitFrom : Nat → Text → List Segment
  | _, [] => []
  | skip + 1, _ :: rest => splitFrom skip rest
  | 0, b :: rest =>
    if b != openBrace then addByte b (splitFrom 0 rest)
    else match rest with
      | c :: _ =>
        if c == openBrace then addByte b (splitFrom 1 rest)
        else match rest.idxOf? closeBrace with
          | some n => reference (Text.trim (rest.take n)) :: splitFrom (n + 1) rest
          | none => addText (b :: rest) []
      | [] => [literal [b]]

/-- The segments of an attribute value. -/
def split (value : Text) : List Segment := splitFrom 0 value

/-- The value holds a reference. -/
def hasReference (value : Text) : Bool := (split value).any isReference

/-- The value is one reference and nothing else. -/
def isSingleReference (value : Text) : Bool :=
  match split (Text.trim value) with
  | [reference _] => true
  | _ => false

/-! ## Paths -/

/-- A name of letters, digits, underscores and dashes of ASCII that does not start with a dash. -/
def isDashedName (name : Text) : Bool :=
  !name.isEmpty && !Text.startsWith name "-" &&
    name.all fun b => Text.isWordByte b || b == '-'.toUInt8

/-- A path that a reference may have: identifiers or dashed names with dots between them. -/
def isLegalPath (path : Text) : Bool :=
  !path.isEmpty &&
    (path.splitOn '.'.toUInt8).all fun name => Text.isIdentifier name || isDashedName name

end Segment

end ViewBinder
