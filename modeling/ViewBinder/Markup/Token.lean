-- Tokens of markup. `Token.scan` reads one token from the front of a source and returns what is
-- left of it; an error keeps what was left when it was found, so that its line can be told.
-- Line ends in text and attribute values become plain newlines, and character names and codes
-- are resolved while reading.
import ViewBinder.Markup.Character
import ViewBinder.Text.CaseMap
import ViewBinder.Text.Utf8

namespace ViewBinder.Markup

/-- A name as it is written: the part before the colon, if there is one, and the part after. -/
structure RawName where
  lead : Text
  base : Text
  deriving DecidableEq, Repr

/-- One piece of markup. -/
inductive Token where
  /-- An opening tag; `empty` when it closes itself. -/
  | start (name : RawName) (attributes : List (RawName × Text)) (empty : Bool)
  /-- A closing tag. -/
  | close (name : RawName)
  /-- Character data. -/
  | text (content : Text)
  /-- A section of verbatim character data. -/
  | cdata (content : Text)
  /-- A comment. -/
  | comment
  /-- A processing instruction. -/
  | instruction (target : Text)
  /-- A markup declaration such as a document type. -/
  | declaration (body : Text)
  deriving Repr

/-! ## What can go wrong -/

/-- Why markup cannot be read. -/
inductive ScanCause where
  | unexpectedEnd
  | endInCdata
  | noNameAfterOpen
  | noNameAfterClose
  | noTarget
  | noAttributeName
  | noEquals
  | unquotedValue
  | closeSpacing (name : Text)
  | noSlashEnd
  | badComment
  | dashesInComment
  | badSection
  | strayCdataEnd
  | strayAngle
  | badEntity (written : Text)
  | invalidName (name : Text)
  | invalidUtf8
  | illegalCharacter (code : Nat)
  | unsupportedVersion (version : Text)
  | unsupportedEncoding (encoding : Text)
  | strayClose (name : Text)
  | wrongClose (opened closed : Text)
  | wrongLead (opened closed : RawName)
  deriving Repr

/-- The wording of a cause. -/
def ScanCause.message : ScanCause → Text
  | .unexpectedEnd => "unexpected EOF"
  | .endInCdata => "unexpected EOF in CDATA section"
  | .noNameAfterOpen => "expected element name after <"
  | .noNameAfterClose => "expected element name after </"
  | .noTarget => "expected target name after <?"
  | .noAttributeName => "expected attribute name in element"
  | .noEquals => "attribute name without = in element"
  | .unquotedValue => "unquoted or missing attribute value in element"
  | .closeSpacing name => "invalid characters between </" ++ name ++ " and >"
  | .noSlashEnd => "expected /> in element"
  | .badComment => "invalid sequence <!- not part of <!--"
  | .dashesInComment => "invalid sequence \"--\" not allowed in comments"
  | .badSection => "invalid <![ sequence"
  | .strayCdataEnd => "unescaped ]]> not in CDATA section"
  | .strayAngle => "unescaped < inside quoted string"
  | .badEntity written =>
    "invalid character entity " ++ written ++
      Text.onlyIf (!Text.endsWith written ";") " (no semicolon)"
  | .invalidName name => "invalid XML name: " ++ name
  | .invalidUtf8 => "invalid UTF-8"
  | .illegalCharacter code => "illegal character code U+" ++ Text.toUpper (Text.hexOf 4 code)
  | .unsupportedVersion version =>
    "xml: unsupported version " ++ Text.quote version ++ "; only version 1.0 is supported"
  | .unsupportedEncoding encoding =>
    "xml: encoding " ++ Text.quote encoding ++ " declared but Decoder.CharsetReader is nil"
  | .strayClose name => "unexpected end element </" ++ name ++ ">"
  | .wrongClose opened closed => "element <" ++ opened ++ "> closed by </" ++ closed ++ ">"
  | .wrongLead opened closed =>
    "element <" ++ opened.base ++ "> in space " ++ opened.lead ++ " closed by </" ++ closed.base ++
      "> in space " ++ (if closed.lead.isEmpty then Text.ofString "\"\"" else closed.lead)

/-- The cause is about the document's declaration and not about its syntax. -/
def ScanCause.isDeclared : ScanCause → Bool
  | .unsupportedVersion _ | .unsupportedEncoding _ => true
  | _ => false

/-- A cause with the part of the source that was not yet read. -/
structure ScanError where
  cause : ScanCause
  rest : Text
  deriving Repr

/-- The result of reading something from the front of a source. -/
abbrev Scan (α : Type) := Except ScanError (α × Text)

/-- Reading stops because of `cause`. -/
def stop {α : Type} (cause : ScanCause) (rest : Text) : Except ScanError α :=
  .error ⟨cause, rest⟩

/-! ## Names and spaces -/

/-- A space between the parts of a tag. -/
def isTagSpace (b : UInt8) : Bool := b == 0x20 || b == 0x0D || b == 0x0A || b == 0x09

/-- The source after spaces. -/
def skipSpace (source : Text) : Text := source.dropWhile isTagSpace

/-- A byte that a name goes on with while it is being read. -/
def isNameRun (b : UInt8) : Bool := 0x80 ≤ b || isNameByte b

/-- The bytes of a name at the front, none when no name starts there. A name cannot be the last
thing of a source. -/
def scanNameBytes (source : Text) : Scan (Option Text) :=
  match source with
  | [] => stop .unexpectedEnd []
  | b :: _ =>
    if !isNameRun b then .ok (none, source)
    else match source.dropWhile isNameRun with
      | [] => stop .unexpectedEnd []
      | rest => .ok (some (source.takeWhile isNameRun), rest)

/-- A well-formed name at the front, none when no name starts there. -/
def scanName (source : Text) : Scan (Option Text) :=
  match scanNameBytes source with
  | .ok (some name, rest) =>
    if isName name then .ok (some name, rest) else stop (.invalidName name) rest
  | other => other

/-- A name split at its colon. A colon at either end belongs to the name; two colons make it no
name. -/
def splitName (name : Text) : Option RawName :=
  match Text.splitOn ':'.toUInt8 name with
  | [lead, base] => if lead.isEmpty || base.isEmpty then some ⟨[], name⟩ else some ⟨lead, base⟩
  | [_] => some ⟨[], name⟩
  | _ => none

/-- A name of a tag or attribute, or `otherwise` when none is there. -/
def scanRawName (otherwise : ScanCause) (source : Text) : Scan RawName :=
  match scanName source with
  | .error e => .error e
  | .ok (none, rest) => stop otherwise rest
  | .ok (some name, rest) =>
    match splitName name with
    | some raw => .ok (raw, rest)
    | none => stop otherwise rest

/-! ## Character data -/

/-- A character that documents may hold. -/
def isDocumentCode (code : Nat) : Bool :=
  code == 0x09 || code == 0x0A || code == 0x0D || (0x20 ≤ code && code ≤ 0xD7FF) ||
  (0xE000 ≤ code && code ≤ 0xFFFD) || (0x10000 ≤ code && code ≤ 0x10FFFF)

/-- Why the first unfit character of some data is unfit. -/
def unfitData? (data : Text) : Option ScanCause :=
  data.runes.findSome? fun r =>
    if r.isBroken then some .invalidUtf8
    else if isDocumentCode r.code then none
    else some (.illegalCharacter r.code)

/-- Data that may stand in a document. -/
def checkData (data rest : Text) : Scan Text :=
  match unfitData? data with
  | some cause => stop cause rest
  | none => .ok (data, rest)

/-- A hexadecimal digit. -/
def isHexByte (b : UInt8) : Bool :=
  Text.isDigitByte b || (0x61 ≤ b && b ≤ 0x66) || (0x41 ≤ b && b ≤ 0x46)

/-- The value of a hexadecimal digit. -/
def hexValue (b : UInt8) : Nat :=
  if Text.isDigitByte b then b.toNat - 48 else b.toNat % 32 + 9

/-- The character with the code that the digits give; none for no digits or too large a code. -/
def charOfCode? (base : Nat) (digits : Text) : Option Text :=
  if digits.isEmpty then none
  else
    let code := digits.foldl (fun n b => n * base + hexValue b) 0
    if code ≤ 0x10FFFF then some (Text.encodeRune code) else none

/-- A character reference by number, after `&#`: its character and the bytes it takes. -/
def scanCharCode (source : Text) : Except ScanError (Text × Nat) :=
  match source with
  | [] => stop .unexpectedEnd []
  | b :: after =>
    let hex := b == 'x'.toUInt8
    let body := if hex then after else source
    let isDigit := if hex then isHexByte else Text.isDigitByte
    let digits := body.takeWhile isDigit
    let written : Text := "&#" ++ (Text.onlyIf hex "x" ++ digits)
    match body.dropWhile isDigit with
    | [] => stop .unexpectedEnd []
    | c :: rest =>
      if c == ';'.toUInt8 then
        match charOfCode? (if hex then 16 else 10) digits with
        | some char => .ok (char, digits.length + (if hex then 2 else 1))
        | none => stop (.badEntity (written ++ ";")) rest
      else stop (.badEntity written) (c :: rest)

/-- A character reference, after `&`: its character and the bytes it takes. -/
def scanEntity (source : Text) : Except ScanError (Text × Nat) :=
  match source with
  | [] => stop .unexpectedEnd []
  | b :: after =>
    if b == '#'.toUInt8 then
      match scanCharCode after with
      | .ok (char, size) => .ok (char, size + 1)
      | .error e => .error e
    else match scanNameBytes source with
      | .error e => .error e
      | .ok (found, rest) =>
        let name := found.getD []
        match rest with
        | [] => stop .unexpectedEnd []
        | c :: beyond =>
          if c == ';'.toUInt8 then
            match (if isName name then entity? name else none) with
            | some char => .ok (char, name.length + 1)
            | none => stop (.badEntity ("&" ++ name ++ ";")) beyond
          else stop (.badEntity ("&" ++ name)) rest

/-- The byte to keep for a byte of data: a return becomes a newline, and the newline after a
return is dropped. -/
def dataByte (previous b : UInt8) : Text :=
  if b == 0x0D then [0x0A] else if previous == 0x0D && b == 0x0A then [] else [b]

/-- Character data up to the next tag, or up to the quote that ends an attribute value. `skip`
counts bytes of a character reference still to pass, `b0` and `b1` are the bytes before, and
`data` is what was read, last byte first. -/
def scanData (quote : Option UInt8) : Nat → UInt8 → UInt8 → Text → Text → Scan Text
  | _, _, _, data, [] =>
    match checkData data.reverse [] with
    | .ok result => if quote.isSome then stop .unexpectedEnd [] else .ok result
    | .error e => .error e
  | skip + 1, b0, b1, data, _ :: rest => scanData quote skip b0 b1 data rest
  | 0, b0, b1, data, b :: rest =>
    if quote.isNone && b0 == ']'.toUInt8 && b1 == ']'.toUInt8 && b == '>'.toUInt8 then
      stop .strayCdataEnd rest
    else if b == '<'.toUInt8 then
      if quote.isSome then stop .strayAngle rest else checkData data.reverse (b :: rest)
    else if quote == some b then checkData data.reverse rest
    else if b == '&'.toUInt8 then
      match scanEntity rest with
      | .ok (char, size) => scanData quote size 0 0 (char.reverse ++ data) rest
      | .error e => .error e
    else scanData quote 0 b1 b (dataByte b1 b ++ data) rest

/-- The data with its line ends made plain. -/
def plainLines (previous : UInt8) : Text → Text
  | [] => []
  | b :: rest => dataByte previous b ++ plainLines b rest

/-- A verbatim section, after `<![CDATA[`. -/
def scanCdata (source : Text) : Scan Token :=
  match Text.indexOf? "]]>" source with
  | none => stop .endInCdata []
  | some size =>
    match checkData (plainLines 0 (source.take size)) (source.drop (size + 3)) with
    | .ok (data, rest) => .ok (.cdata data, rest)
    | .error e => .error e

/-! ## Tags -/

/-- The value of an attribute, after the equals sign. -/
def scanValue (source : Text) : Scan Text :=
  match source with
  | [] => stop .unexpectedEnd []
  | b :: rest =>
    if b == '\"'.toUInt8 || b == '\''.toUInt8 then scanData (some b) 0 0 0 [] rest
    else stop .unquotedValue rest

/-- One attribute. -/
def scanAttribute (source : Text) : Scan (RawName × Text) :=
  match scanRawName .noAttributeName source with
  | .error e => .error e
  | .ok (name, rest) =>
    match skipSpace rest with
    | [] => stop .unexpectedEnd []
    | b :: rest =>
      if b == '='.toUInt8 then
        match scanValue (skipSpace rest) with
        | .ok (value, rest) => .ok ((name, value), rest)
        | .error e => .error e
      else stop .noEquals rest

/-- The attributes and the end of an opening tag; `fuel` bounds the number of attributes. -/
def scanTagRest (name : RawName) : Nat → List (RawName × Text) → Text → Scan Token
  | 0, _, _ => stop .unexpectedEnd []
  | fuel + 1, read, source =>
    match skipSpace source with
    | [] => stop .unexpectedEnd []
    | b :: rest =>
      if b == '/'.toUInt8 then
        match rest with
        | [] => stop .unexpectedEnd []
        | c :: rest =>
          if c == '>'.toUInt8 then .ok (.start name read true, rest) else stop .noSlashEnd rest
      else if b == '>'.toUInt8 then .ok (.start name read false, rest)
      else match scanAttribute (b :: rest) with
        | .ok (found, rest) => scanTagRest name fuel (read ++ [found]) rest
        | .error e => .error e

/-- An opening tag, after `<`. -/
def scanStart (source : Text) : Scan Token :=
  match scanRawName .noNameAfterOpen source with
  | .error e => .error e
  | .ok (name, rest) => scanTagRest name (rest.length + 1) [] rest

/-- A closing tag, after `</`. -/
def scanClose (source : Text) : Scan Token :=
  match scanRawName .noNameAfterClose source with
  | .error e => .error e
  | .ok (name, rest) =>
    match skipSpace rest with
    | [] => stop .unexpectedEnd []
    | b :: rest =>
      if b == '>'.toUInt8 then .ok (.close name, rest) else stop (.closeSpacing name.base) rest

/-! ## Instructions, comments and declarations -/

/-- The quoted value after `name=` in the body of an instruction; a `name=` without a quote after
it is passed over. `fuel` bounds the number of those. -/
def pseudoAttribute (name : Text) : Nat → Text → Text
  | 0, _ => []
  | fuel + 1, body =>
    match Text.indexOf? (name ++ "=") body with
    | none => []
    | some k =>
      match body.drop (k + name.length + 1) with
      | [] => []
      | q :: rest =>
        if q == '\"'.toUInt8 || q == '\''.toUInt8 then
          if rest.contains q then rest.takeWhile (· != q) else []
        else pseudoAttribute name fuel rest

/-- A processing instruction, after `<?`. The document's own declaration must ask for version 1.0
and UTF-8. -/
def scanInstruction (source : Text) : Scan Token :=
  match scanName source with
  | .error e => .error e
  | .ok (none, rest) => stop .noTarget rest
  | .ok (some target, rest) =>
    let body := skipSpace rest
    match Text.indexOf? "?>" body with
    | none => stop .unexpectedEnd []
    | some size =>
      let content := body.take size
      let rest := body.drop (size + 2)
      if target == "xml" then
        let version := pseudoAttribute "version" content.length content
        let encoding := pseudoAttribute "encoding" content.length content
        if !version.isEmpty && version != "1.0" then stop (.unsupportedVersion version) rest
        else if !encoding.isEmpty && Text.toLower encoding != "utf-8" then
          stop (.unsupportedEncoding encoding) rest
        else .ok (.instruction target, rest)
      else .ok (.instruction target, rest)

/-- A comment, after `<!--`. -/
def scanComment (source : Text) : Scan Token :=
  match Text.indexOf? "--" source with
  | none => stop .unexpectedEnd []
  | some size =>
    match source.drop (size + 2) with
    | [] => stop .unexpectedEnd []
    | b :: rest => if b == '>'.toUInt8 then .ok (.comment, rest) else stop .dashesInComment rest

/-- Where the reading of a markup declaration stands. -/
inductive DeclarationMode where
  /-- Between constructs. -/
  | plain
  /-- After `<` and `matched` bytes of `!--`. -/
  | opened (matched : Nat)
  /-- In a comment, after the two bytes. -/
  | comment (b0 b1 : UInt8)

/-- Quote and bracket depth after a byte of a declaration, and whether the byte opens one. -/
def declarationByte (quote : UInt8) (depth : Int) (b : UInt8) : UInt8 × Int × DeclarationMode :=
  if b == quote then (0, depth, .plain)
  else if quote != 0 then (quote, depth, .plain)
  else if b == '\''.toUInt8 || b == '\"'.toUInt8 then (b, depth, .plain)
  else if b == '>'.toUInt8 then (quote, depth - 1, .plain)
  else if b == '<'.toUInt8 then (quote, depth, .opened 0)
  else (quote, depth, .plain)

/-- The body of a markup declaration up to the bracket that ends it. Brackets nest, quotes hide
them, and a comment inside counts as a space. `body` is what was read, last byte first. -/
def scanDeclaration : DeclarationMode → UInt8 → Int → Text → Text → Scan Token
  | _, _, _, _, [] => stop .unexpectedEnd []
  | .plain, quote, depth, body, b :: rest =>
    if quote == 0 && b == '>'.toUInt8 && depth == 0 then .ok (.declaration body.reverse, rest)
    else
      let (quote, depth, mode) := declarationByte quote depth b
      scanDeclaration mode quote depth (b :: body) rest
  | .opened matched, quote, depth, body, b :: rest =>
    if ("!--" : Text)[matched]? == some b then
      if matched == 2 then scanDeclaration (.comment 0 0) quote depth (body.drop 1) rest
      else scanDeclaration (.opened (matched + 1)) quote depth body rest
    else
      let body := (("!--" : Text).take matched).reverse ++ body
      let (quote, depth, mode) := declarationByte quote (depth + 1) b
      scanDeclaration mode quote depth (b :: body) rest
  | .comment b0 b1, quote, depth, body, b :: rest =>
    if b0 == '-'.toUInt8 && b1 == '-'.toUInt8 && b == '>'.toUInt8 then
      scanDeclaration .plain quote depth (0x20 :: body) rest
    else scanDeclaration (.comment b1 b) quote depth body rest

/-- A verbatim section, after `<![` and before the bytes `expected` next. -/
def scanSection : Text → Text → Scan Token
  | [], source => scanCdata source
  | _ :: _, [] => stop .unexpectedEnd []
  | c :: more, b :: rest => if b == c then scanSection more rest else stop .badSection rest

/-- Comment, verbatim section or declaration, after `<!`. -/
def scanBang (source : Text) : Scan Token :=
  match source with
  | [] => stop .unexpectedEnd []
  | b :: rest =>
    if b == '-'.toUInt8 then
      match rest with
      | [] => stop .unexpectedEnd []
      | c :: rest => if c == '-'.toUInt8 then scanComment rest else stop .badComment rest
    else if b == '['.toUInt8 then scanSection "CDATA[" rest
    else scanDeclaration .plain 0 0 [b] rest

/-- The token at the front of a source that is not empty. -/
def Token.scan (source : Text) : Scan Token :=
  match source with
  | [] => stop .unexpectedEnd []
  | b :: rest =>
    if b != '<'.toUInt8 then
      match scanData none 0 0 0 [] source with
      | .ok (data, rest) => .ok (.text data, rest)
      | .error e => .error e
    else match rest with
      | [] => stop .unexpectedEnd []
      | c :: after =>
        if c == '/'.toUInt8 then scanClose after
        else if c == '?'.toUInt8 then scanInstruction after
        else if c == '!'.toUInt8 then scanBang after
        else scanStart rest

end ViewBinder.Markup
