-- Patterns of statements: a percent sign with a letter stands for the next argument. What a pattern
-- asks for and does not get is written into the result, so a stray percent sign shows.
import ViewBinder.Text.Utf8

namespace ViewBinder.Pattern

/-- How an argument is to be written. -/
structure Shape where
  left : Bool := false
  zeros : Bool := false
  sharp : Bool := false
  plus : Bool := false
  space : Bool := false
  width : Option Nat := none
  precision : Option Nat := none
  deriving Repr

/-- The shape with a flag set, if the byte is one. -/
def Shape.withFlag? (s : Shape) (b : UInt8) : Option Shape :=
  if b == '#'.toUInt8 then some { s with sharp := true }
  else if b == '0'.toUInt8 then some { s with zeros := true }
  else if b == '+'.toUInt8 then some { s with plus := true }
  else if b == '-'.toUInt8 then some { s with left := true }
  else if b == ' '.toUInt8 then some { s with space := true }
  else none

/-- The flags at the front and the rest. -/
def flags (s : Shape) : Text → Shape × Text
  | [] => (s, [])
  | b :: rest =>
    match s.withFlag? b with
    | some s => flags s rest
    | none => (s, b :: rest)

/-- The digits at the front as a number, and the rest. Nothing is read behind a number that is
absurdly long. -/
def number (t : Text) : Option Nat × Text :=
  let digits := t.takeWhile Text.isDigitByte
  if digits.isEmpty then (none, t)
  else if 1000000 < Text.digitsValue digits.dropLast then (none, [])
  else (some (Text.digitsValue digits), t.drop digits.length)

/-- Where the arguments stand: the next one, whether the last index was good and whether an index
was used at all. -/
structure Cursor where
  next : Nat := 0
  good : Bool := true
  reordered : Bool := false
  /-- An index was just read. -/
  fresh : Bool := false
  deriving Repr

/-- An index in brackets at the front, which must name one of `count` arguments. -/
def readIndex (count : Nat) (c : Cursor) (t : Text) : Cursor × Text :=
  if !Text.startsWith t "[" then ({ c with fresh := false }, t)
  else
    let c := { c with reordered := true }
    match (t.drop 1).idxOf? ']'.toUInt8 with
    | none => ({ c with good := false, fresh := false }, t.drop 1)
    | some n =>
      let inner := (t.drop 1).take n
      let rest := t.drop (n + 2)
      match number inner with
      | (some k, []) =>
        if 1 ≤ k && k ≤ count then ({ c with next := k - 1, fresh := true }, rest)
        else ({ c with good := false, fresh := true }, rest)
      | _ => ({ c with good := false, fresh := false }, rest)

/-- The text filled up to the width of a shape. -/
def pad (s : Shape) (t : Text) : Text :=
  let missing := s.width.getD 0 - t.runes.length
  if s.left then t ++ List.replicate missing ' '.toUInt8
  else List.replicate missing (if s.zeros then '0'.toUInt8 else ' '.toUInt8) ++ t

/-- The text cut to the precision of a shape. -/
def cut (s : Shape) (t : Text) : Text :=
  match s.precision with
  | some n => Text.ofRunes (t.runes.take n)
  | none => t

/-- Hexadecimal digits in upper case. -/
def upperHex (t : Text) : Text := t.map fun b => if Text.isLowerByte b then b - 32 else b

/-- The bytes of a text in hexadecimal. -/
def hexText (s : Shape) (t : Text) (upper : Bool) : Text :=
  let bytes := match s.precision with
    | some n => t.take n
    | none => t
  let lead : Text := if s.sharp then (if upper then "0X" else "0x") else []
  let digits := bytes.map fun b => Text.hexOf 2 b.toNat
  let digits := if upper then digits.map upperHex else digits
  if bytes.isEmpty then []
  else if s.space then Text.join " " (digits.map fun d => lead ++ d) else lead ++ digits.flatten

/-- A text that can stand between back quotes as it is: on one line and without a back quote. -/
def isRaw (t : Text) : Bool :=
  t.isValid && t.runes.all fun r =>
    (0x20 ≤ r.code || r.code == 0x09) && r.code != 0x60 && r.code != 0x7F && r.code != 0xFEFF

/-- A text in quotes, or in back quotes where the shape asks for them. -/
def quoted (s : Shape) (t : Text) : Text :=
  if s.sharp && isRaw t then "`" ++ t ++ "`" else Text.quote t

/-- An argument as the letter asks for it; other letters are noted with the argument. Arguments are
names of locals, so every character of them can be shown. -/
def argument (s : Shape) (letter arg : Text) : Text :=
  let plain := pad s (cut s arg)
  let literal := pad s (Text.quote (cut s arg))
  if letter == "s" then plain
  else if letter == "v" then if s.sharp then literal else plain
  else if letter == "q" then pad s (quoted s (cut s arg))
  else if letter == "x" then pad s (hexText s arg false)
  else if letter == "X" then pad s (hexText s arg true)
  else if letter == "T" then pad s (cut s "string")
  else
    let shown := if letter == "w" && s.sharp then literal else plain
    "%!" ++ letter ++ "(string=" ++ shown ++ ")"

/-- A star that asks for a width or precision by argument, of which there is none. -/
def star (what : Text) (c : Cursor) (t : Text) : Option (Text × Cursor × Text) :=
  if Text.startsWith t "*" then
    some ("%!(BAD" ++ what ++ ")", { c with next := c.next + 1, fresh := false }, t.drop 1)
  else none

/-- Reads the width: the note, the shape, the arguments and the rest. -/
def readWidth (s : Shape) (c : Cursor) (t : Text) : Text × Shape × Cursor × Text :=
  match star "WIDTH" c t with
  | some (note, c, rest) => (note, s, c, rest)
  | none =>
    let (width, rest) := number t
    ([], { s with width }, { c with good := c.good && !(c.fresh && width.isSome) }, rest)

/-- Reads the precision: the note, the shape, the arguments and the rest. -/
def readPrecision (count : Nat) (s : Shape) (c : Cursor) (t : Text) :
    Text × Shape × Cursor × Text :=
  if !Text.startsWith t "." then ([], s, c, t)
  else
    let (c, rest) := readIndex count { c with good := c.good && !c.fresh } (t.drop 1)
    match star "PREC" c rest with
    | some (note, c, rest) => (note, s, c, rest)
    | none =>
      let (precision, rest) := number rest
      ([], { s with precision := some (precision.getD 0) }, c, rest)

/-- What follows a percent sign: the text for it, the arguments and the rest. -/
def directive (args : List Text) (next : Nat) (reordered : Bool) (t : Text) :
    Text × Cursor × Text :=
  let (shape, rest) := flags {} t
  let (c, rest) := readIndex args.length { next, reordered } rest
  let (widthNote, shape, c, rest) := readWidth shape c rest
  let (precisionNote, shape, c, rest) := readPrecision args.length shape c rest
  let (c, rest) := if c.fresh then (c, rest) else readIndex args.length c rest
  let notes := widthNote ++ precisionNote
  let (code, size) := Text.decodeHead rest
  let letter := Text.encodeRune code
  if rest.isEmpty then (notes ++ "%!(NOVERB)", c, [])
  else if letter == "%" then (notes ++ "%", c, rest.drop size)
  else if !c.good then (notes ++ "%!" ++ letter ++ "(BADINDEX)", c, rest.drop size)
  else match args[c.next]? with
    | none => (notes ++ "%!" ++ letter ++ "(MISSING)", c, rest.drop size)
    | some arg =>
      (notes ++ argument shape letter arg, { c with next := c.next + 1 }, rest.drop size)

/-- The pattern with its arguments filled in. A directive is never longer than the pattern, so the
length of the pattern is fuel enough. -/
def fillFrom (args : List Text) : Nat → Nat → Bool → Text → Text
  | 0, _, _, _ => []
  | fuel + 1, next, reordered, t =>
    let plain := t.takeWhile (· != '%'.toUInt8)
    match t.drop plain.length with
    | [] =>
      if !reordered && next < args.length then
        plain ++ "%!(EXTRA " ++
          Text.join ", " ((args.drop next).map fun a => "string=" ++ a) ++ ")"
      else plain
    | _ :: rest =>
      let (written, c, rest) := directive args next reordered rest
      plain ++ written ++ fillFrom args fuel c.next c.reordered rest

/-- The pattern with its arguments filled in. -/
def fill (pattern : Text) (args : List Text) : Text :=
  fillFrom args (pattern.length + 1) 0 false pattern

end ViewBinder.Pattern
