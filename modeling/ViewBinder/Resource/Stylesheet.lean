-- Stylesheets: the text of a style block without its comments, and the class names its selectors
-- use. A stylesheet falls into selectors and the text between them, and a selector into class names
-- and the text between those; the pieces, one after the other, are the text. So a class can be
-- renamed wherever a selector names it and nowhere else.
import ViewBinder.Text.Basic

namespace ViewBinder

namespace Stylesheet

/-- White space between the parts of a stylesheet. -/
def isSpaceByte (b : UInt8) : Bool :=
  b == 0x20 || b == 0x09 || b == 0x0A || b == 0x0D || b == 0x0C

/-! ## Comments -/

/-- The size of the comment at the front of the text, if it is closed. -/
def commentSize? (t : Text) : Option Nat :=
  if Text.startsWith t "/*" then (Text.indexOf? "*/" (t.drop 2)).map (· + 4) else none

/-- The text without comments; `skip` bytes belong to the comment before. -/
def stripFrom : Nat → Text → Text
  | _, [] => []
  | skip + 1, _ :: rest => stripFrom skip rest
  | 0, b :: rest =>
    match commentSize? (b :: rest) with
    | some size => stripFrom (size - 1) rest
    | none => b :: stripFrom 0 rest

/-- The text without comments; a comment that is not closed stays. -/
def stripComments (css : Text) : Text := stripFrom 0 css

/-! ## Selectors -/

/-- A piece of a stylesheet. -/
inductive Chunk where
  /-- What stands in front of a block that is not the block of an at-rule. -/
  | selector (t : Text)
  | other (t : Text)
  deriving DecidableEq, Repr

/-- The text of a piece. -/
def Chunk.text : Chunk → Text
  | selector t => t
  | other t => t

/-- The pieces of what stands in front of a block, its opening brace included. -/
def blockChunks (front : Text) : List Chunk :=
  let blanks := front.takeWhile isSpaceByte
  let rest := front.drop blanks.length
  if rest.isEmpty || Text.startsWith rest "@" then [.other (front ++ "\x7b")]
  else [.other blanks, .selector rest, .other "\x7b"]

/-- Where a reader of a stylesheet stands: outside of strings or in a string with a closing quote;
an escape takes the next byte with it. -/
structure Reader where
  quote : Option UInt8 := none
  escaped : Bool := false
  deriving Repr

/-- The reader after a byte. -/
def Reader.step (r : Reader) (b : UInt8) : Reader :=
  if r.escaped then { r with escaped := false }
  else if b == '\\'.toUInt8 then { r with escaped := true }
  else match r.quote with
    | some q => if b == q then {} else r
    | none => if b == '\"'.toUInt8 || b == '\''.toUInt8 then { quote := some b } else r

/-- A byte counts by itself: it is neither in a string nor escaped. -/
def Reader.isPlain (r : Reader) : Bool := r.quote.isNone && !r.escaped

/-- The pieces of a stylesheet. `front` is what was read since the last block or declaration, the
last byte first. -/
def chunksFrom (r : Reader) (front : Text) : Text → List Chunk
  | [] => [.other front.reverse]
  | b :: rest =>
    if r.isPlain && (b == ';'.toUInt8 || b == '\x7d'.toUInt8) then
      .other (b :: front).reverse :: chunksFrom r [] rest
    else if r.isPlain && b == '\x7b'.toUInt8 then
      blockChunks front.reverse ++ chunksFrom r [] rest
    else chunksFrom (r.step b) (b :: front) rest

/-- The selectors of a stylesheet and the text between them. -/
def chunks (css : Text) : List Chunk := chunksFrom {} [] css

/-! ## Parts of selectors -/

/-- A part of a selector. -/
inductive Part where
  /-- A class name, with a dot in front of it in the text. -/
  | className (name : Text)
  | other (t : Text)
  deriving DecidableEq, Repr

/-- The text of a part. -/
def Part.text : Part → Text
  | className name => '.'.toUInt8 :: name
  | other t => t

/-- A byte of a name. -/
def isNameByte (b : UInt8) : Bool := Text.isWordByte b || b == '-'.toUInt8

/-- A byte of an attribute name in a test. -/
def isTestByte (b : UInt8) : Bool :=
  isNameByte b || b == '.'.toUInt8 || b == '*'.toUInt8 || b == '\\'.toUInt8 || b == '$'.toUInt8

/-- The size of a value in quotes, up to the bracket behind it. -/
def quotedSize? (quote : UInt8) (t : Text) : Option Nat :=
  match t with
  | b :: rest =>
    if b == quote then
      match rest.idxOf? quote with
      | some n => if Text.startsWith (rest.drop (n + 1)) "]" then some (n + 2) else none
      | none => none
    else none
  | [] => none

/-- The size of a value without blanks or brackets, up to the bracket behind it. -/
def plainSize? (t : Text) : Option Nat :=
  let run := t.takeWhile fun b => b != ']'.toUInt8 && !isSpaceByte b
  if !run.isEmpty && Text.startsWith (t.drop run.length) "]" then some run.length else none

/-- The size of an attribute test at the front: a name in brackets, with or without a value. -/
def testSize? (t : Text) : Option Nat :=
  if Text.startsWith t "[" then
    let name := (t.drop 1).takeWhile isTestByte
    let rest := t.drop (name.length + 1)
    if name.isEmpty then none
    else if Text.startsWith rest "]" then some (name.length + 2)
    else if Text.startsWith rest "=" then
      let value := rest.drop 1
      (quotedSize? '\"'.toUInt8 value <|> quotedSize? '\''.toUInt8 value <|> plainSize? value).map
        (· + name.length + 3)
    else none
  else none

/-- The part at the front of a selector that begins with `b`. -/
def partAt (b : UInt8) (rest : Text) : Part :=
  let name := rest.takeWhile isNameByte
  if b == '.'.toUInt8 && !name.isEmpty then .className name
  else if b == '#'.toUInt8 && !name.isEmpty then .other (b :: name)
  else if isNameByte b then .other (b :: name)
  else match testSize? (b :: rest) with
    | some size => .other ((b :: rest).take size)
    | none => .other [b]

/-- The parts from the first byte not yet passed on; `skip` bytes belong to the part before. -/
def partsFrom : Nat → Text → List Part
  | _, [] => []
  | skip + 1, _ :: rest => partsFrom skip rest
  | 0, b :: rest =>
    let part := partAt b rest
    part :: partsFrom (part.text.length - 1) rest

/-- The class names of a selector and the text between them. -/
def parts (selector : Text) : List Part := partsFrom 0 selector

/-- The class names of a selector. -/
def selectorClasses (selector : Text) : List Text :=
  (parts selector).filterMap fun part =>
    match part with
    | .className name => some name
    | .other _ => none

end Stylesheet

/-- A style block. -/
structure Stylesheet where
  text : Text
  /-- The class names in the order they first appear. -/
  classes : List Text
  deriving Repr

namespace Stylesheet

/-- The class names of a text without comments, each once. -/
def classesOf (text : Text) : List Text :=
  ((chunks text).flatMap fun chunk =>
    match chunk with
    | .selector t => selectorClasses t
    | .other _ => []).eraseDups

/-- Reads a style block. -/
def parse (css : Text) : Stylesheet := ⟨stripComments css, classesOf (stripComments css)⟩

/-- A selector with its class names replaced where a new name is known. -/
def renameSelector (names : List (Text × Text)) (selector : Text) : Text :=
  (parts selector).flatMap fun part =>
    match part with
    | .className name => '.'.toUInt8 :: (names.lookup name).getD name
    | .other t => t

/-- The text with its class names replaced where a new name is known. -/
def rename (s : Stylesheet) (names : List (Text × Text)) : Text :=
  (chunks s.text).flatMap fun chunk =>
    match chunk with
    | .selector t => renameSelector names t
    | .other t => t

/-- The class names in byte order. -/
def sortedClasses (s : Stylesheet) : List Text := Text.sorted s.classes

end Stylesheet

end ViewBinder
