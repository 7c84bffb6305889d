-- Characters in a text. A text reads as a sequence of runes: each valid UTF-8 form is one rune,
-- and each byte that begins none is a rune of its own that stands for the replacement character.
-- The bytes of the runes, one after the other, are the text. As a string literal of the generated
-- program, visible characters stand for themselves, quotes and backslashes are escaped, and everything
-- else has an escape of its own.
import ViewBinder.Text.Classes
import ViewBinder.Text.Basic

namespace ViewBinder.Text

/-- The code point that stands for bytes that are no character. -/
def replacement : Nat := 0xFFFD

/-- A continuation byte between the two limits. -/
def within (low high b : UInt8) : Bool := low ≤ b && b ≤ high

/-- A continuation byte. -/
def isTail (b : UInt8) : Bool := within 0x80 0xBF b

/-- The six low bits of a continuation byte. -/
def tailBits (b : UInt8) : Nat := b.toNat % 64

/-- The code point at the front of the text and the number of bytes it takes: one byte for a byte
that begins no character, none for the empty text. -/
def decodeHead : Text → Nat × Nat
  | [] => (replacement, 0)
  | a :: rest =>
    if a < 0x80 then (a.toNat, 1)
    else if within 0xC2 0xDF a then
      match rest with
      | b :: _ => if isTail b then (a.toNat % 32 * 64 + tailBits b, 2) else (replacement, 1)
      | [] => (replacement, 1)
    else if within 0xE0 0xEF a then
      let low : UInt8 := if a == 0xE0 then 0xA0 else 0x80
      let high : UInt8 := if a == 0xED then 0x9F else 0xBF
      match rest with
      | b :: c :: _ =>
        if within low high b && isTail c then
          ((a.toNat % 16 * 64 + tailBits b) * 64 + tailBits c, 3)
        else (replacement, 1)
      | _ => (replacement, 1)
    else if within 0xF0 0xF4 a then
      let low : UInt8 := if a == 0xF0 then 0x90 else 0x80
      let high : UInt8 := if a == 0xF4 then 0x8F else 0xBF
      match rest with
      | b :: c :: d :: _ =>
        if within low high b && isTail c && isTail d then
          (((a.toNat % 8 * 64 + tailBits b) * 64 + tailBits c) * 64 + tailBits d, 4)
        else (replacement, 1)
      | _ => (replacement, 1)
    else (replacement, 1)

/-- The UTF-8 bytes of a code point; what is no character is written as the replacement
character. -/
def encodeRune (code : Nat) : Text :=
  if code < 0x80 then [code.toUInt8]
  else if code < 0x800 then [(0xC0 + code / 64).toUInt8, (0x80 + code % 64).toUInt8]
  else if 0x10FFFF < code || (0xD800 ≤ code && code ≤ 0xDFFF) then [0xEF, 0xBF, 0xBD]
  else if code < 0x10000 then
    [(0xE0 + code / 4096).toUInt8, (0x80 + code / 64 % 64).toUInt8, (0x80 + code % 64).toUInt8]
  else
    [(0xF0 + code / 262144).toUInt8, (0x80 + code / 4096 % 64).toUInt8,
     (0x80 + code / 64 % 64).toUInt8, (0x80 + code % 64).toUInt8]

/-- One character of a text with the bytes it was read from. -/
structure Rune where
  code : Nat
  bytes : Text
  deriving DecidableEq, Repr

/-- The byte of this rune begins no character. -/
def Rune.isBroken (r : Rune) : Bool := r.code == replacement && r.bytes.length == 1

/-- The runes from the first byte not yet passed on; `skip` bytes belong to the rune before. -/
def runesFrom : Nat → Text → List Rune
  | _, [] => []
  | skip + 1, _ :: rest => runesFrom skip rest
  | 0, b :: rest =>
    let (code, size) := decodeHead (b :: rest)
    ⟨code, (b :: rest).take size⟩ :: runesFrom (size - 1) rest

/-- The characters of a text in order. -/
def runes (t : Text) : List Rune := runesFrom 0 t

/-- The bytes of the runes, one after the other. -/
def ofRunes (rs : List Rune) : Text := rs.flatMap (·.bytes)

/-- Every byte belongs to a character. -/
def isValid (t : Text) : Bool := t.runes.all fun r => !r.isBroken

/-! ## Blanks -/

/-- The runes without the blanks in front. -/
def dropBlanks (rs : List Rune) : List Rune := rs.dropWhile fun r => isSpace r.code

/-- The text without the blanks at both ends. -/
def trim (t : Text) : Text :=
  ofRunes (dropBlanks (dropBlanks t.runes).reverse).reverse

/-- The runs of non-blank characters among the runes; `word` is the run being read. -/
def wordsFrom (word : Text) : List Rune → List Text
  | [] => if word.isEmpty then [] else [word]
  | r :: rest =>
    if isSpace r.code then
      if word.isEmpty then wordsFrom [] rest else word :: wordsFrom [] rest
    else wordsFrom (word ++ r.bytes) rest

/-- The words of a text: its runs of non-blank characters. -/
def words (t : Text) : List Text := wordsFrom [] t.runes

/-! ## Quoting -/

/-- The short escapes of control characters. -/
def shortEscape? : Nat → Option Char
  | 0x07 => some 'a'
  | 0x08 => some 'b'
  | 0x09 => some 't'
  | 0x0A => some 'n'
  | 0x0B => some 'v'
  | 0x0C => some 'f'
  | 0x0D => some 'r'
  | _ => none

/-- One character as it stands between the quotes. -/
def quoteRune (r : Rune) : Text :=
  if r.isBroken then "\\x" ++ r.bytes.flatMap fun b => hexOf 2 b.toNat
  else if r.code == 0x22 || r.code == 0x5C then "\\" ++ r.bytes
  else if isVisible r.code then r.bytes
  else match shortEscape? r.code with
    | some c => "\\" ++ [c.toUInt8]
    | none =>
      if r.code < 0x20 || r.code == 0x7F then "\\x" ++ hexOf 2 r.code
      else if r.code < 0x10000 then "\\u" ++ hexOf 4 r.code
      else "\\U" ++ hexOf 8 r.code

/-- The text as a string literal. -/
def quote (t : Text) : Text := "\"" ++ t.runes.flatMap quoteRune ++ "\""

end ViewBinder.Text
