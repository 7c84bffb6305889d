-- Messages: the translatable texts of a template. A message is literal text with named placeholders
-- between. Messages with the same key share a method of the generated type; without a key of its
-- own, the text, the meaning and the use as markup are the key of a message.
import ViewBinder.Catalog.Basic
import ViewBinder.Diagnostic.Problem
import ViewBinder.Html.Escape

namespace ViewBinder

/-- A piece of a message. -/
inductive MessagePart where
  | literal (text : Text)
  /-- A parameter with the argument passed for it and an example for translators. -/
  | placeholder (name arg sample : Text)
  deriving DecidableEq, Repr

namespace MessagePart

/-- A placeholder; without a name it is empty text. -/
def named (name arg sample : Text) : MessagePart :=
  if name.isEmpty then .literal [] else .placeholder name arg sample

/-- The piece as translators see it. -/
def text : MessagePart → Text
  | literal t => t
  | placeholder name _ _ => "\x7b" ++ name ++ "\x7d"

/-- The name of a placeholder. -/
def name? : MessagePart → Option Text
  | literal _ => none
  | placeholder name _ _ => some name

/-- The argument of a placeholder. -/
def arg? : MessagePart → Option Text
  | literal _ => none
  | placeholder _ arg _ => some arg

/-- The piece in the body of its method; empty text adds nothing. -/
def operand? : MessagePart → Option Text
  | literal t => if t.isEmpty then none else some (Text.quote t)
  | placeholder name _ _ => some name

/-- The example of a placeholder as a comment shows it. -/
def sample? : MessagePart → Option Text
  | literal _ => none
  | placeholder name _ sample =>
    if sample.isEmpty then none else some (name ++ "=" ++ Text.quote sample)

end MessagePart

/-- A translatable text. -/
structure Message where
  description : Text := []
  meaning : Text := []
  key : Text := []
  /-- The literal text is markup. -/
  html : Bool := false
  parts : List MessagePart := []
  deriving DecidableEq, Repr

namespace Message

/-- The message as translators see it. -/
def text (m : Message) : Text := m.parts.flatMap MessagePart.text

/-- The message without character references. -/
def plainText (m : Message) : Text := if m.html then Html.unescape m.text else m.text

/-- The arguments in order. -/
def args (m : Message) : List Text := m.parts.filterMap MessagePart.arg?

/-- The names of the placeholders in order. -/
def names (m : Message) : List Text := m.parts.filterMap MessagePart.name?

/-- What tells the message from others. -/
def identity (m : Message) : Text :=
  if !m.key.isEmpty then m.key
  else m.text ++ [0] ++ m.meaning ++ [0] ++ Text.ofString (if m.html then "true" else "false")

/-- Checks the placeholders: `seen` are the names before. -/
def checkNames (m : Message) (seen : List Text) : List Text → Except Problem Unit
  | [] => .ok ()
  | name :: rest =>
    if !Text.isIdentifier name then .error (.illegalPlaceholder name)
    else if seen.contains name then .error (.duplicatePlaceholder name m.text)
    else checkNames m (name :: seen) rest

end Message

/-- The messages of one unit: each stands for a method of the generated type. -/
structure Messages where
  /-- The name of the generated type. -/
  name : Text := []
  /-- The generated type in the catalog. -/
  type : Option TypeId := none
  declared : List Message := []
  deriving Repr

namespace Messages

/-- The name of the method with a number. -/
def methodName (i : Nat) : Text := "Message" ++ Text.ofNat (i + 1)

/-- The expression that makes a value of the generated type. -/
def initializer (ms : Messages) : Text := "&" ++ ms.name ++ "\x7b\x7d"

/-- The number of the method a message shares, or of a new one. A key must not be used for two
descriptions. -/
def declare (ms : Messages) (m : Message) : Except Problem (Nat × Messages) := do
  m.checkNames [] m.names
  match ms.declared.findIdx? fun old => old.identity == m.identity with
  | some i =>
    match ms.declared[i]? with
    | some old =>
      if old.description != m.description && !m.key.isEmpty then .error (.keyTwice m.key)
      else .ok (i, ms)
    | none => .ok (i, ms)
  | none => .ok (ms.declared.length, { ms with declared := ms.declared ++ [m] })

/-- The method of a message; every parameter and the result are of the text type. -/
def method (ms : Messages) (text : Option TypeId) (i : Nat) (m : Message) : Method :=
  { name := methodName i, params := m.names.map fun name => ⟨name, text⟩, returns := text,
    owner := ms.type }

/-- The methods of the generated type. -/
def methods (ms : Messages) (text : Option TypeId) : List Method :=
  ms.declared.zipIdx.map fun entry => ms.method text entry.2 entry.1

/-- Words with single blanks between them. -/
def oneLine (t : Text) : Text := Text.join " " t.words

/-- A line of a comment, left out when it has nothing to say. -/
def commentLine (label t : Text) : Text :=
  Text.onlyIf (!t.isEmpty) ("// " ++ label ++ ": " ++ t ++ "\n")

/-- The method of a message as the program writes it. -/
def renderMethod (ms : Messages) (i : Nat) (m : Message) : Text :=
  let operands := m.parts.filterMap MessagePart.operand?
  let body := if operands.isEmpty then [Text.quote []] else operands
  let samples := Text.sorted (m.parts.filterMap MessagePart.sample?)
  let params := Text.onlyIf (!m.names.isEmpty) (Text.join ", " m.names ++ " string")
  "// " ++ methodName i ++ " returns " ++ Text.quote m.plainText ++ ".\n" ++
    Text.onlyIf (!m.description.isEmpty) ("// Description: " ++ oneLine m.description ++ "\n") ++
    Text.onlyIf (!m.meaning.isEmpty) ("// Meaning: " ++ oneLine m.meaning ++ "\n") ++
    commentLine "Examples" (Text.join ", " samples) ++
    "func (*" ++ ms.name ++ ") " ++ methodName i ++ "(" ++ params ++ ") string \x7b\n" ++
    "\treturn " ++ Text.join " + " body ++ "\n\x7d"

/-- The generated type and its methods; nothing without messages. -/
def declarations (ms : Messages) : List Text :=
  if ms.declared.isEmpty then []
  else ("type " ++ ms.name ++ " struct\x7b\x7d") ::
    ms.declared.zipIdx.map fun entry => ms.renderMethod entry.2 entry.1

end Messages

end ViewBinder
