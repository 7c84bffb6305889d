-- Names of the generated program. Template authors write names with dashes, dots and any letters;
-- the program needs exported accessor names and plain identifiers. `sanitize` always gives an
-- identifier that is no keyword and none of the names the program relies on.
import ViewBinder.Text.CaseMap

namespace ViewBinder.Text

/-! ## Character codes of names -/

/-- White space of markup: tab to space, and the no-break space. -/
def isGapCode (code : Nat) : Bool := (9 ≤ code && code ≤ 32) || code == 160

/-- The digits 0 to 9. -/
def isDigitCode (code : Nat) : Bool := 48 ≤ code && code ≤ 57

/-- The letters of ASCII. -/
def isLetterCode (code : Nat) : Bool := (97 ≤ code && code ≤ 122) || (65 ≤ code && code ≤ 90)

/-- A character an identifier may start with. -/
def isNameStart (code : Nat) : Bool := isLetterCode code || code == 95

/-- A character an identifier may go on with. -/
def isNamePart (code : Nat) : Bool := isNameStart code || isDigitCode code

/-- The text holds nothing but white space of markup. -/
def isBlank (t : Text) : Bool := t.runes.all fun r => isGapCode r.code

/-! ## Dashes and capitals -/

/-- Dashes in front of a small letter or digit go, and the letter becomes a capital; `dashes`
counts the dashes read so far. -/
def camelFrom (dashes : Nat) : Text → Text
  | [] => List.replicate dashes '-'.toUInt8
  | b :: rest =>
    if b == '-'.toUInt8 then camelFrom (dashes + 1) rest
    else if 0 < dashes && isLowerByte b then (b - 32) :: camelFrom 0 rest
    else if 0 < dashes && isDigitByte b then b :: camelFrom 0 rest
    else List.replicate dashes '-'.toUInt8 ++ b :: camelFrom 0 rest

/-- A dashed name in camel case: `my-class` becomes `myClass`. -/
def camelCase (t : Text) : Text := camelFrom 0 t

/-- The accessor name of a property or style class: `my-class` becomes `MyClass`. The first byte
is put in lower case before the dashes are resolved. -/
def exported (t : Text) : Text :=
  match t with
  | [] => []
  | b :: rest => capitalize (camelCase (toLower [b] ++ rest))

/-- The name of the method that sets a property. -/
def setterOf (property : Text) : Text := "Set" ++ exported property

/-- The trimmed parts before and after the first period, or the default without one. -/
def splitAtPeriod (t : Text) (otherwise : List Text) : List Text :=
  match t.idxOf? '.'.toUInt8 with
  | some i => [trim (t.take i), trim (t.drop (i + 1))]
  | none => otherwise

/-! ## Identifiers -/

/-- The reserved words of the generated language. -/
def keywords : List Text :=
  ["break", "case", "chan", "const", "continue", "default", "defer", "else", "fallthrough",
   "for", "func", "go", "goto", "if", "import", "interface", "map", "package", "range",
   "return", "select", "struct", "switch", "type", "var"]

/-- Names the generated program relies on, which no local may take. -/
def predeclared : List Text :=
  ["owner", "string", "int", "bool", "nil", "true", "false", "len"]

/-- A word that no generated name may be. -/
def isTaken (t : Text) : Bool := keywords.contains t || predeclared.contains t

/-- The first character of an identifier: a digit gets an underscore in front, any other
character that cannot start a name becomes one. -/
def sanitizeFirst (code : Nat) : Text :=
  if isNameStart code then [code.toUInt8]
  else if isDigitCode code then ['_'.toUInt8, code.toUInt8]
  else ['_'.toUInt8]

/-- A later character of an identifier. -/
def sanitizeLater (code : Nat) : Text :=
  if isNamePart code then [code.toUInt8] else ['_'.toUInt8]

/-- The characters of an identifier, before reserved words are avoided. -/
def sanitizeRunes : List Rune → Text
  | [] => ['_'.toUInt8]
  | r :: rest => sanitizeFirst r.code ++ rest.flatMap fun s => sanitizeLater s.code

/-- A plain identifier made from any name. -/
def sanitize (t : Text) : Text :=
  let name := sanitizeRunes t.runes
  if isTaken name then name ++ "_" else name

/-- The runes after the first one of an identifier as the generated language allows them. -/
def isIdentifierRest (rs : List Rune) : Bool :=
  rs.all fun r => isLetter r.code || r.code == 95 || isDigit r.code

/-- The name can stand as it is for a local of the program: letters, digits and underscores of any
script, no digit in front, and no reserved word. -/
def isIdentifier (t : Text) : Bool :=
  match t.runes with
  | [] => false
  | r :: rest => (isLetter r.code || r.code == 95) && isIdentifierRest rest && !isTaken t

end ViewBinder.Text
