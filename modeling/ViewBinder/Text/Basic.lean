-- Text as the bytes it is written in. Templates, stylesheets and generated programs are cut and
-- joined at byte positions, also in the middle of a character, so the bytes are the text and the
-- characters are a reading of it (see `ViewBinder.Text.Utf8`).
namespace ViewBinder

/-- Puts a value in front of the first one that it may stand before. -/
def insertBy {α : Type} (le : α → α → Bool) (a : α) : List α → List α
  | [] => [a]
  | b :: rest => if le a b then a :: b :: rest else b :: insertBy le a rest

/-- The values in order; those that may stand either way keep their order. -/
def sortBy {α : Type} (le : α → α → Bool) (xs : List α) : List α := xs.foldr (insertBy le) []

/-- A run of bytes, most often the UTF-8 form of some characters. -/
abbrev Text := List UInt8

namespace Text

/-- The UTF-8 bytes of a string. -/
def ofString (s : String) : Text := s.toUTF8.data.toList

instance : Coe String Text := ⟨ofString⟩

/-- The decimal digits of a number. -/
def ofNat (n : Nat) : Text := (Nat.toDigits 10 n).map Char.toUInt8

/-- The decimal digits of a number, with a minus sign when it is negative. -/
def ofInt : Int → Text
  | .ofNat n => ofNat n
  | .negSucc n => "-" ++ ofNat (n + 1)

/-! ## Looking for parts -/

/-- The text begins with `part`. -/
def startsWith (t part : Text) : Bool := part.isPrefixOf t

/-- The text ends with `part`. -/
def endsWith (t part : Text) : Bool := part.isSuffixOf t

/-- Where `part` first occurs. -/
def indexOf? (part : Text) : Text → Option Nat
  | [] => if part.isEmpty then some 0 else none
  | b :: rest =>
    if part.isPrefixOf (b :: rest) then some 0 else (indexOf? part rest).map (· + 1)

/-- The text holds `part` somewhere. -/
def contains (t part : Text) : Bool := (indexOf? part t).isSome

/-- Where the byte last occurs. -/
def lastIndexOf? (byte : UInt8) (t : Text) : Option Nat :=
  match t.reverse.idxOf? byte with
  | some k => some (t.length - 1 - k)
  | none => none

/-! ## Cutting and joining -/

/-- The text without `part` in front, if it stands there. -/
def dropFront (t part : Text) : Text := if startsWith t part then t.drop part.length else t

/-- The text without `part` at the end, if it stands there. -/
def dropBack (t part : Text) : Text :=
  if endsWith t part then t.take (t.length - part.length) else t

/-- The pieces between the occurrences of a byte; there is always at least one. -/
def splitOn (byte : UInt8) : Text → List Text
  | [] => [[]]
  | b :: rest =>
    if b == byte then [] :: splitOn byte rest
    else match splitOn byte rest with
      | piece :: pieces => (b :: piece) :: pieces
      | [] => [[b]]

/-- The pieces with `glue` between each two. -/
def join (glue : Text) (pieces : List Text) : Text := glue.intercalate pieces

/-- The text with the occurrences of `part`, found from the left, replaced. `skip` counts the
bytes of an occurrence that are still to pass. -/
def replaceFrom (part new : Text) : Nat → Text → Text
  | _, [] => []
  | skip + 1, _ :: rest => replaceFrom part new skip rest
  | 0, b :: rest =>
    if part.isPrefixOf (b :: rest) then new ++ replaceFrom part new (part.length - 1) rest
    else b :: replaceFrom part new 0 rest

/-- Every occurrence of a non-empty `part` replaced by `new`. -/
def replaceAll (t part new : Text) : Text := replaceFrom part new 0 t

/-- `n` copies of the text. -/
def times (n : Nat) (t : Text) : Text := (List.replicate n t).flatten

/-- The text when the condition holds, and nothing otherwise. -/
def onlyIf (condition : Bool) (t : Text) : Text := if condition then t else []

/-! ## Order -/

/-- Byte by byte order; a text stands before its continuations. -/
def before : Text → Text → Bool
  | [], [] => false
  | [], _ :: _ => true
  | _ :: _, [] => false
  | a :: s, b :: t => a < b || (a == b && before s t)

/-- The texts in byte order. -/
def sorted (ts : List Text) : List Text := sortBy (fun a b => !before b a) ts

/-- Values in the byte order of their keys. -/
def sortedBy {α : Type} (key : α → Text) (xs : List α) : List α :=
  sortBy (fun a b => !before (key b) (key a)) xs

/-! ## Bytes -/

/-- An ASCII digit. -/
def isDigitByte (b : UInt8) : Bool := '0'.toUInt8 ≤ b && b ≤ '9'.toUInt8

/-- An ASCII lower case letter. -/
def isLowerByte (b : UInt8) : Bool := 'a'.toUInt8 ≤ b && b ≤ 'z'.toUInt8

/-- An ASCII upper case letter. -/
def isUpperByte (b : UInt8) : Bool := 'A'.toUInt8 ≤ b && b ≤ 'Z'.toUInt8

/-- An ASCII letter, digit or underscore. -/
def isWordByte (b : UInt8) : Bool :=
  isDigitByte b || isLowerByte b || isUpperByte b || b == '_'.toUInt8

/-- The value of a run of ASCII digits, read in base ten. -/
def digitsValue (t : Text) : Nat := t.foldl (fun n b => n * 10 + (b.toNat - 48)) 0

/-- A lower case hexadecimal digit. -/
def hexDigit (n : Nat) : UInt8 := if n < 10 then (48 + n).toUInt8 else (87 + n).toUInt8

/-- The last `width` hexadecimal digits of a number, in lower case. -/
def hexOf : Nat → Nat → Text
  | 0, _ => []
  | width + 1, n => hexOf width (n / 16) ++ [hexDigit (n % 16)]

end Text

end ViewBinder
