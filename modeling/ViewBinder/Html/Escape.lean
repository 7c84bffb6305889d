-- Special characters of HTML. Content and attribute values of generated markup are escaped the same
-- way; text that is handed on for later use in markup also keeps its returns. Character references
-- are read back, by number or by name, and everything else stays; what follows a name that needs no
-- semicolon may run on.
import ViewBinder.Html.ReferenceNames
import ViewBinder.Text.Utf8

namespace ViewBinder.Html

/-! ## Escaping -/

/-- A byte of generated markup: the five special characters have a reference each, and the null
byte becomes the replacement character. -/
def escapeByte (b : UInt8) : Text :=
  if b == '&'.toUInt8 then "&amp;"
  else if b == '<'.toUInt8 then "&lt;"
  else if b == '>'.toUInt8 then "&gt;"
  else if b == '\"'.toUInt8 then "&#34;"
  else if b == '\''.toUInt8 then "&#39;"
  else if b == 0 then [0xEF, 0xBF, 0xBD]
  else [b]

/-- Text as content or attribute value of generated markup. -/
def escape (t : Text) : Text := t.flatMap escapeByte

/-- A byte of text that is handed on as markup: as in generated markup, but a return is kept by a
reference and the null byte stays. -/
def escapeInnerByte (b : UInt8) : Text :=
  if b == 0x0D then "&#13;" else if b == 0 then [b] else escapeByte b

/-- Text of an element handed on as markup. -/
def escapeInner (t : Text) : Text := t.flatMap escapeInnerByte

/-! ## References by name -/

/-- A letter or digit of a name. -/
def isNameByte (b : UInt8) : Bool :=
  Text.isLowerByte b || Text.isUpperByte b || Text.isDigitByte b

/-- The value of a hexadecimal digit. -/
def hexValue? (b : UInt8) : Option Nat :=
  if Text.isDigitByte b then some (b.toNat - 48)
  else if 'a'.toUInt8 ≤ b && b ≤ 'f'.toUInt8 then some (b.toNat - 87)
  else if 'A'.toUInt8 ≤ b && b ≤ 'F'.toUInt8 then some (b.toNat - 55)
  else none

/-- The value of hexadecimal digits. -/
def hexNumber (t : Text) : Nat := (t.filterMap hexValue?).foldl (fun n d => n * 16 + d) 0

/-- A name and its characters. -/
structure Reference where
  name : Text
  /-- The name may stand without a semicolon. -/
  bare : Bool
  codes : List Nat
  deriving Repr

/-- An entry of the tables of names. -/
def Reference.ofEntry (entry : Text) : Reference :=
  let name := entry.takeWhile isNameByte
  let rest := entry.drop name.length
  ⟨name, rest.head? == some '?'.toUInt8,
    (Text.splitOn '+'.toUInt8 (rest.drop 1)).map hexNumber⟩

/-- The place of a letter in the alphabet, whatever its case. -/
def letterPlace (b : UInt8) : Nat := (if Text.isLowerByte b then b - 97 else b - 65).toNat

/-- The entries that begin with a letter. -/
def entriesOf (letter : UInt8) : List Text :=
  match referenceTables[letterPlace letter]? with
  | some table => table.flatMap fun line => Text.splitOn ' '.toUInt8 (Text.ofString line)
  | none => []

/-- The characters of a name, which stands with a semicolon or without. -/
def named? (name : Text) (closed : Bool) : Option (List Nat) :=
  match name with
  | [] => none
  | letter :: _ =>
    ((entriesOf letter).map Reference.ofEntry).findSome? fun r =>
      if r.name == name && (closed || r.bare) then some r.codes else none

/-- The longest name without a semicolon has this many letters. -/
def longestBare : Nat := 6

/-- The longest name without a semicolon that `run` begins with, of at most `size` letters and at
least two. -/
def bareLead? (run : Text) : Nat → Option (List Nat × Nat)
  | 0 => none
  | size + 1 =>
    if size == 0 then none
    else match named? (run.take (size + 1)) false with
      | some codes => some (codes, size + 1)
      | none => bareLead? run size

/-- The characters of the reference by name after an ampersand, and the bytes it takes. -/
def nameReference? (t : Text) : Option (List Nat × Nat) :=
  let run := t.takeWhile isNameByte
  let closed := Text.startsWith (t.drop run.length) ";"
  let size := if closed then run.length + 1 else run.length
  match named? run closed with
  | some codes => some (codes, size)
  | none => bareLead? run (min (size - 1) longestBare)

/-! ## References by number -/

/-- Characters that numbers from 128 on stand for. -/
def highCharacters : List Nat :=
  [0x20AC, 0x81, 0x201A, 0x0192, 0x201E, 0x2026, 0x2020, 0x2021, 0x02C6, 0x2030, 0x0160, 0x2039,
   0x0152, 0x8D, 0x017D, 0x8F, 0x90, 0x2018, 0x2019, 0x201C, 0x201D, 0x2022, 0x2013, 0x2014,
   0x02DC, 0x2122, 0x0161, 0x203A, 0x0153, 0x9D, 0x017E, 0x0178]

/-- The character a number stands for. -/
def numberedCode (n : Nat) : Nat :=
  if n == 0 then Text.replacement
  else if 0x80 ≤ n then (highCharacters[n - 0x80]?).getD n
  else n

/-- The character of the reference by number after an ampersand and a hash, and the bytes it takes.
Numbers wrap around at 32 bits, and a reference of one byte is none. -/
def numberReference? (t : Text) : Option (List Nat × Nat) :=
  let hex := Text.startsWith t "x" || Text.startsWith t "X"
  let rest := if hex then t.drop 1 else t
  let digits := rest.takeWhile fun b => if hex then (hexValue? b).isSome else Text.isDigitByte b
  let closed := Text.startsWith (rest.drop digits.length) ";"
  let size := (t.length - rest.length) + digits.length + if closed then 1 else 0
  let value := (if hex then hexNumber digits else Text.digitsValue digits) % 0x100000000
  if t.length ≤ 1 || size ≤ 1 then none else some ([numberedCode value], size)

/-! ## Unescaping -/

/-- The characters of the reference that follows an ampersand, and the bytes it takes. -/
def reference? (t : Text) : Option (List Nat × Nat) :=
  if Text.startsWith t "#" then
    (numberReference? (t.drop 1)).map fun found => (found.1, found.2 + 1)
  else nameReference? t

/-- The text from the first byte not yet passed on; `skip` bytes belong to the reference before. -/
def unescapeFrom : Nat → Text → Text
  | _, [] => []
  | skip + 1, _ :: rest => unescapeFrom skip rest
  | 0, b :: rest =>
    if b == '&'.toUInt8 then
      match reference? rest with
      | some (codes, size) => codes.flatMap Text.encodeRune ++ unescapeFrom size rest
      | none => b :: unescapeFrom 0 rest
    else b :: unescapeFrom 0 rest

/-- The text with its references replaced. -/
def unescape (t : Text) : Text := unescapeFrom 0 t

end ViewBinder.Html
