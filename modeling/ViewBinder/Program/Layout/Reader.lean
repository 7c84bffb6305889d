-- Reading statements: the text of a statement becomes lexemes, and lexemes become a statement. Only
-- the statements that programs are made of are read; any other text is no statement here.
import ViewBinder.Program.Layout.Statement

namespace ViewBinder.Layout

/-- The smallest parts of a statement. -/
inductive Lexeme where
  /-- A name or a number. -/
  | word (t : Text)
  /-- A text in quotes. -/
  | literal (t : Text)
  | mark (c : Char)
  /-- The sign of a definition. -/
  | define
  deriving DecidableEq, Repr

/-- A byte of a name or a number. -/
def isWordPart (b : UInt8) : Bool := Text.isWordByte b || 0x80 ≤ b

/-- The rest of a quoted text with its closing quote, and what follows. `escaped` tells that the
first byte has no meaning of its own. -/
def readQuoted (escaped : Bool) : Text → Option (Text × Text)
  | [] => none
  | b :: rest =>
    if b == 0x22 && !escaped then some ([b], rest)
    else (readQuoted (b == 0x5C && !escaped) rest).map fun (t, rest) => (b :: t, rest)

/-- The letter in front of an exponent. -/
def opensExponent (b : UInt8) : Bool :=
  b == 'e'.toUInt8 || b == 'E'.toUInt8 || b == 'p'.toUInt8 || b == 'P'.toUInt8

/-- The rest of a number with its point and exponent, and what follows; `last` was read before. -/
def readNumber (last : UInt8) : Text → Text × Text
  | [] => ([], [])
  | b :: rest =>
    let isSign := opensExponent last && (b == '+'.toUInt8 || b == '-'.toUInt8)
    if isWordPart b || b == '.'.toUInt8 || isSign then
      let (t, rest) := readNumber b rest
      (b :: t, rest)
    else ([], b :: rest)

/-- The lexemes of a text. -/
def lexemes : Nat → Text → Option (List Lexeme)
  | _, [] => some []
  | 0, _ :: _ => none
  | fuel + 1, b :: rest =>
    if b == 0x20 || b == 0x09 then lexemes fuel rest
    else if b == 0x22 then do
      let (t, rest) ← readQuoted false rest
      return .literal (b :: t) :: (← lexemes fuel rest)
    else if b == 0x60 then do
      let t := rest.takeWhile (· != b)
      return .literal (b :: t ++ [b]) :: (← lexemes fuel (rest.drop (t.length + 1)))
    else if Text.isDigitByte b then
      let (t, rest) := readNumber b rest
      (lexemes fuel rest).map (.word (b :: t) :: ·)
    else if isWordPart b then
      let t := (b :: rest).takeWhile isWordPart
      (lexemes fuel (rest.drop (t.length - 1))).map (.word t :: ·)
    else if Text.startsWith (b :: rest) ":=" then
      (lexemes fuel (rest.drop 1)).map (.define :: ·)
    else (lexemes fuel rest).map (.mark (Char.ofNat b.toNat) :: ·)

/-- Reads something off the front of lexemes. -/
abbrev Reader := StateT (List Lexeme) Option

namespace Reader

/-- Takes a mark if it stands in front. -/
def accepts (c : Char) : Reader Bool := do
  match ← get with
  | .mark d :: rest =>
    if c == d then do set rest; return true else return false
  | _ => return false

/-- Takes a mark that must stand in front. -/
def expect (c : Char) : Reader Unit := do
  unless ← accepts c do failure

/-- A lexeme of the result of a function. -/
def isTypePart : Lexeme → Bool
  | .word _ => true
  | .mark c => c == '*' || c == '.' || c == '[' || c == ']'
  | _ => false

/-- A lexeme as it is written. -/
def written : Lexeme → Text
  | .word t => t
  | .literal t => t
  | .mark c => [c.toUInt8]
  | .define => ":="

/-- The head of a function literal without parameters, after its first word. -/
def functionHead : Reader Text := do
  expect '('
  expect ')'
  let result := (← get).takeWhile isTypePart
  set ((← get).dropWhile isTypePart)
  let result := result.flatMap written
  return if result.isEmpty then "func()" else "func() " ++ result

/-- A statement ends here. -/
def endsStatement : List Lexeme → Bool
  | [] => true
  | l :: _ => l == .mark ';' || l == .mark '\x7d'

mutual

/-- A sum of operands. -/
def expr : Nat → Reader Expr
  | 0 => failure
  | fuel + 1 => do terms fuel (← operand fuel)

/-- The terms after the first ones of a sum. -/
def terms : Nat → Expr → Reader Expr
  | 0, _ => failure
  | fuel + 1, left => do
    if ← accepts '+' then terms fuel (.sum left "+" (← operand fuel))
    else if ← accepts '-' then terms fuel (.sum left "-" (← operand fuel))
    else return left

/-- An operand with the operators in front of it and behind it. -/
def operand : Nat → Reader Expr
  | 0 => failure
  | fuel + 1 => do
    match ← get with
    | .mark '&' :: rest => do set rest; return .signed "&" (← operand fuel)
    | .mark '-' :: rest => do set rest; return .signed "-" (← operand fuel)
    | .mark '!' :: rest => do set rest; return .signed "!" (← operand fuel)
    | .mark '*' :: rest => do set rest; return .pointee (← operand fuel)
    | .mark '(' :: rest => do
      set rest
      let x ← expr fuel
      expect ')'
      suffixes fuel (.parens x)
    | .literal t :: rest => do set rest; suffixes fuel (.atom t)
    | .word t :: rest => do
      set rest
      if t == "func" then
        let head ← functionHead
        expect '\x7b'
        suffixes fuel (.function head (← body fuel))
      else suffixes fuel (.atom t)
    | _ => failure

/-- What stands behind an operand: members, arguments and the parts of a value. -/
def suffixes : Nat → Expr → Reader Expr
  | 0, _ => failure
  | fuel + 1, x => do
    match ← get with
    | .mark '.' :: .word name :: rest => do set rest; suffixes fuel (.member x name)
    | .mark '(' :: rest => do set rest; suffixes fuel (.call x (← parts fuel ')'))
    | .mark '\x7b' :: rest =>
      if x.isName then do set rest; suffixes fuel (.composite x (← parts fuel '\x7d'))
      else return x
    | _ => return x

/-- The parts in front of a closing mark, with commas between them. -/
def parts : Nat → Char → Reader (List Expr)
  | 0, _ => failure
  | fuel + 1, close => do
    if ← accepts close then return []
    let x ← expr fuel
    let x ← if ← accepts ':' then .keyed x <$> expr fuel else pure x
    if ← accepts ',' then return x :: (← parts fuel close)
    expect close
    return [x]

/-- The statements in front of the brace that closes a function. -/
def body : Nat → Reader (List Statement)
  | 0 => failure
  | fuel + 1 => do
    if ← accepts '\x7d' then return []
    let s ← statement fuel
    if ← accepts ';' then return s :: (← body fuel)
    expect '\x7d'
    return [s]

/-- A statement. -/
def statement : Nat → Reader Statement
  | 0 => failure
  | fuel + 1 => do
    match ← get with
    | .word t :: rest =>
      if t == "return" then do
        set rest
        if endsStatement rest then return .give none else return .give (some (← expr fuel))
      else assignment fuel
    | _ => assignment fuel

/-- An expression, or a value given to one. -/
def assignment : Nat → Reader Statement
  | 0 => failure
  | fuel + 1 => do
    let x ← expr fuel
    match ← get with
    | .mark '=' :: rest => do set rest; return .assign x "=" (← expr fuel)
    | .define :: rest => do set rest; return .assign x ":=" (← expr fuel)
    | _ => return .value x

end

end Reader

/-- The statement that a text is, if it is one. -/
def Statement.read (t : Text) : Option Statement := do
  let ls ← lexemes t.length t
  let (s, rest) ← (Reader.statement (8 * ls.length + 8)).run ls
  if rest.isEmpty then return s else none

end ViewBinder.Layout
