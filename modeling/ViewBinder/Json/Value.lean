-- JSON values and the reader for them. The reader accepts exactly one value with white space around
-- it; an error tells which byte was met and what was being read. Numbers keep their spelling, and
-- text that is no UTF-8 is mended with the replacement character.
import ViewBinder.Text.Utf8

namespace ViewBinder.Json

/-- A JSON value; members of an object stay in their order, repeated names included. -/
inductive Value where
  | null
  | boolean (b : Bool)
  | number (literal : Text)
  | string (t : Text)
  | array (items : List Value)
  | object (members : List (Text × Value))
  deriving Repr

/-- Why a text is no JSON value. -/
inductive Fault where
  /-- The text ends too early. -/
  | endOfInput
  /-- A byte that cannot stand there. -/
  | unexpected (byte : UInt8) (place : Text)
  /-- Values are nested too deeply. -/
  | tooDeep
  deriving Repr

/-- A byte as a quoted character. -/
def quotedByte (b : UInt8) : Text :=
  if b == '\''.toUInt8 then "'\\''"
  else if b == '\"'.toUInt8 then "'\"'"
  else "'" ++ ((Text.quote (Text.encodeRune b.toNat)).drop 1).dropLast ++ "'"

/-- The wording of a fault. -/
def Fault.message : Fault → Text
  | endOfInput => "unexpected end of JSON input"
  | unexpected byte place => "invalid character " ++ quotedByte byte ++ " " ++ place
  | tooDeep => "exceeded max depth"

/-- White space between the parts of a value. -/
def isGap (b : UInt8) : Bool := b == 0x20 || b == 0x09 || b == 0x0A || b == 0x0D

/-- The text without the white space in front. -/
def skipGaps (t : Text) : Text := t.dropWhile isGap

/-! ## Words and numbers -/

/-- Reads the rest of a word such as `true`. -/
def readWord (word : Text) (value : Value) : Text → Text → Except Fault (Value × Text)
  | [], t => .ok (value, t)
  | _ :: _, [] => .error .endOfInput
  | w :: ws, b :: t =>
    if b == w then readWord word value ws t
    else .error (.unexpected b ("in literal " ++ word ++ " (expecting " ++ quotedByte w ++ ")"))

/-- Reads one digit or more. -/
def readDigits (place : Text) (t : Text) : Except Fault (Text × Text) :=
  match t with
  | [] => .error .endOfInput
  | b :: _ =>
    if Text.isDigitByte b then .ok (t.takeWhile Text.isDigitByte, t.dropWhile Text.isDigitByte)
    else .error (.unexpected b place)

/-- Reads the exponent of a number, if there is one. -/
def readExponent (t : Text) : Except Fault (Text × Text) :=
  match t with
  | e :: rest =>
    if e == 'e'.toUInt8 || e == 'E'.toUInt8 then
      let (sign, rest) : Text × Text := match rest with
        | s :: more => if s == '+'.toUInt8 || s == '-'.toUInt8 then ([s], more) else ([], rest)
        | [] => ([], [])
      (readDigits "in exponent of numeric literal" rest).map fun (digits, rest) =>
        (e :: sign ++ digits, rest)
    else .ok ([], t)
  | [] => .ok ([], [])

/-- Reads the fraction of a number, if there is one. -/
def readFraction (t : Text) : Except Fault (Text × Text) :=
  match t with
  | b :: rest =>
    if b == '.'.toUInt8 then
      (readDigits "after decimal point in numeric literal" rest).map fun (digits, rest) =>
        (b :: digits, rest)
    else .ok ([], t)
  | [] => .ok ([], [])

/-- Reads a number. -/
def readNumber (t : Text) : Except Fault (Text × Text) := do
  let (sign, rest) : Text × Text := if Text.startsWith t "-" then ("-", t.drop 1) else ([], t)
  let (whole, rest) ←
    if Text.startsWith rest "0" then Except.ok (Text.ofString "0", rest.drop 1)
    else readDigits "in numeric literal" rest
  let (fraction, rest) ← readFraction rest
  let (exponent, rest) ← readExponent rest
  return (sign ++ whole ++ fraction ++ exponent, rest)

/-! ## Strings -/

/-- The value of a hexadecimal digit. -/
def hexValue? (b : UInt8) : Option Nat :=
  if Text.isDigitByte b then some (b.toNat - 48)
  else if 'a'.toUInt8 ≤ b && b ≤ 'f'.toUInt8 then some (b.toNat - 87)
  else if 'A'.toUInt8 ≤ b && b ≤ 'F'.toUInt8 then some (b.toNat - 55)
  else none

/-- Reads `n` hexadecimal digits. -/
def readHex : Nat → Nat → Text → Except Fault (Nat × Text)
  | 0, value, t => .ok (value, t)
  | _ + 1, _, [] => .error .endOfInput
  | n + 1, value, b :: t =>
    match hexValue? b with
    | some digit => readHex n (value * 16 + digit) t
    | none => .error (.unexpected b "in \\u hexadecimal character escape")

/-- The character that a backslash and this byte stand for. -/
def escaped? (b : UInt8) : Option UInt8 :=
  if b == '\"'.toUInt8 || b == '\\'.toUInt8 || b == '/'.toUInt8 then some b
  else if b == 'b'.toUInt8 then some 0x08
  else if b == 'f'.toUInt8 then some 0x0C
  else if b == 'n'.toUInt8 then some 0x0A
  else if b == 'r'.toUInt8 then some 0x0D
  else if b == 't'.toUInt8 then some 0x09
  else none

/-- A piece of a string: a byte as written, or the code of an escape. -/
inductive StringPart where
  | byte (b : UInt8)
  | code (n : Nat)

/-- Reads the parts of a string up to its closing quote; `fuel` bounds their number. -/
def readParts : Nat → Text → Except Fault (List StringPart × Text)
  | 0, _ => .error .endOfInput
  | _ + 1, [] => .error .endOfInput
  | fuel + 1, b :: t =>
    if b == '\"'.toUInt8 then .ok ([], t)
    else if b == '\\'.toUInt8 then
      match t with
      | [] => .error .endOfInput
      | c :: rest =>
        if c == 'u'.toUInt8 then do
          let (code, rest) ← readHex 4 0 rest
          let (parts, rest) ← readParts fuel rest
          return (.code code :: parts, rest)
        else match escaped? c with
          | some e => (readParts fuel rest).map fun (parts, rest) => (.code e.toNat :: parts, rest)
          | none => .error (.unexpected c "in string escape code")
    else if b < 0x20 then .error (.unexpected b "in string literal")
    else (readParts fuel t).map fun (parts, rest) => (.byte b :: parts, rest)

/-- The bytes written before the next escape. -/
def plainBytes : List StringPart → Text
  | .byte b :: rest => b :: plainBytes rest
  | _ => []

/-- A surrogate of the first or the second half. -/
def isHalf (first : Bool) (n : Nat) : Bool :=
  if first then 0xD800 ≤ n && n < 0xDC00 else 0xDC00 ≤ n && n < 0xE000

/-- The text of the parts. Two halves make one character, a half alone and a byte that begins no
character become the replacement character. `skip` bytes belong to the character before. -/
def textOfParts : Nat → List StringPart → Text
  | _, [] => []
  | skip + 1, _ :: rest => textOfParts skip rest
  | 0, .byte b :: rest =>
    let (code, size) := Text.decodeHead (b :: plainBytes rest)
    Text.encodeRune code ++ textOfParts (size - 1) rest
  | 0, .code n :: rest =>
    match rest with
    | .code m :: _ =>
      if isHalf true n && isHalf false m then
        Text.encodeRune (0x10000 + (n - 0xD800) * 0x400 + (m - 0xDC00)) ++ textOfParts 1 rest
      else Text.encodeRune n ++ textOfParts 0 rest
    | _ => Text.encodeRune n ++ textOfParts 0 rest

/-- Reads a string after its opening quote. -/
def readString (t : Text) : Except Fault (Text × Text) :=
  (readParts (t.length + 1) t).map fun (parts, rest) => (textOfParts 0 parts, rest)

/-! ## Values -/

/-- How deep values may be nested. -/
def maxDepth : Nat := 10000

mutual

/-- Reads a value; `fuel` bounds the work and `depth` counts the values around it. -/
def readValue (fuel depth : Nat) (t : Text) : Except Fault (Value × Text) :=
  match fuel with
  | 0 => .error .endOfInput
  | fuel + 1 =>
    match skipGaps t with
    | [] => .error .endOfInput
    | b :: rest =>
      if b == '\x7b'.toUInt8 then
        if maxDepth ≤ depth then .error .tooDeep
        else match skipGaps rest with
          | c :: more =>
            if c == '\x7d'.toUInt8 then .ok (.object [], more)
            else (readMembers fuel (depth + 1) rest).map fun (ms, rest) => (.object ms, rest)
          | [] => .error .endOfInput
      else if b == '['.toUInt8 then
        if maxDepth ≤ depth then .error .tooDeep
        else match skipGaps rest with
          | c :: more =>
            if c == ']'.toUInt8 then .ok (.array [], more)
            else (readItems fuel (depth + 1) rest).map fun (vs, rest) => (.array vs, rest)
          | [] => .error .endOfInput
      else if b == '\"'.toUInt8 then
        (readString rest).map fun (s, rest) => (.string s, rest)
      else if b == 't'.toUInt8 then readWord "true" (.boolean true) "rue" rest
      else if b == 'f'.toUInt8 then readWord "false" (.boolean false) "alse" rest
      else if b == 'n'.toUInt8 then readWord "null" .null "ull" rest
      else if b == '-'.toUInt8 || Text.isDigitByte b then
        (readNumber (b :: rest)).map fun (n, rest) => (.number n, rest)
      else .error (.unexpected b "looking for beginning of value")

/-- Reads the members of an object up to its closing brace. -/
def readMembers (fuel depth : Nat) (t : Text) : Except Fault (List (Text × Value) × Text) :=
  match fuel with
  | 0 => .error .endOfInput
  | fuel + 1 =>
    match skipGaps t with
    | [] => .error .endOfInput
    | b :: rest =>
      if b != '\"'.toUInt8 then
        .error (.unexpected b "looking for beginning of object key string")
      else do
        let (name, rest) ← readString rest
        match skipGaps rest with
        | [] => .error .endOfInput
        | c :: rest =>
          if c != ':'.toUInt8 then .error (.unexpected c "after object key")
          else do
            let (value, rest) ← readValue fuel depth rest
            match skipGaps rest with
            | [] => .error .endOfInput
            | d :: rest =>
              if d == '\x7d'.toUInt8 then return ([(name, value)], rest)
              else if d == ','.toUInt8 then
                let (members, rest) ← readMembers fuel depth rest
                return ((name, value) :: members, rest)
              else .error (.unexpected d "after object key:value pair")

/-- Reads the items of an array up to its closing bracket. -/
def readItems (fuel depth : Nat) (t : Text) : Except Fault (List Value × Text) :=
  match fuel with
  | 0 => .error .endOfInput
  | fuel + 1 => do
    let (value, rest) ← readValue fuel depth t
    match skipGaps rest with
    | [] => .error .endOfInput
    | d :: rest =>
      if d == ']'.toUInt8 then return ([value], rest)
      else if d == ','.toUInt8 then
        let (items, rest) ← readItems fuel depth rest
        return (value :: items, rest)
      else .error (.unexpected d "after array element")

end

/-- The value a text is. -/
def parse (t : Text) : Except Fault Value := do
  let (value, rest) ← readValue (2 * t.length + 2) 0 t
  match skipGaps rest with
  | [] => return value
  | b :: _ => .error (.unexpected b "after top-level value")

end ViewBinder.Json
