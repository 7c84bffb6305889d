-- Image headers: format and size of an image file, read without its pixels. The three formats begin
-- with different signatures; each is read only as far as its size needs, and what is read has to be
-- sound.
import ViewBinder.Text.Utf8

namespace ViewBinder

/-- What is known about an image. -/
structure ImageHeader where
  format : Text
  width : Nat
  height : Nat
  deriving DecidableEq, Repr

/-- Why an image cannot be read. -/
inductive ImageFault where
  /-- No signature fits. -/
  | unknownFormat
  /-- The file ends too early. -/
  | truncated
  | gifTruncated (section_ : Text)
  | gifVersion (version : Text)
  | pngInvalid (detail : Text)
  | pngUnsupported (detail : Text)
  | jpegInvalid (detail : Text)
  | jpegUnsupported (detail : Text)
  deriving DecidableEq, Repr

/-- The wording of a fault. -/
def ImageFault.message : ImageFault → Text
  | unknownFormat => "image: unknown format"
  | truncated => "unexpected EOF"
  | gifTruncated section_ => "gif: reading " ++ section_ ++ ": unexpected EOF"
  | gifVersion version => "gif: can't recognize format " ++ Text.quote version
  | pngInvalid detail => "png: invalid format: " ++ detail
  | pngUnsupported detail => "png: unsupported feature: " ++ detail
  | jpegInvalid detail => "invalid JPEG format: " ++ detail
  | jpegUnsupported detail => "unsupported JPEG feature: " ++ detail

namespace ImageHeader

/-! ## Bytes -/

/-- A number with its high byte first. -/
def bigEndian (t : Text) : Nat := t.foldl (fun n b => n * 256 + b.toNat) 0

/-- A number with its low byte first. -/
def littleEndian (t : Text) : Nat := bigEndian t.reverse

/-- The byte at a position. -/
def byteAt (t : Text) (i : Nat) : Nat := (t[i]?.getD 0).toNat

/-- The first `n` bytes and the rest. -/
def cut (n : Nat) (t : Text) : Except ImageFault (Text × Text) :=
  if t.length < n then .error .truncated else .ok (t.take n, t.drop n)

/-! ## GIF -/

/-- The header of a GIF file: the screen size, and a colour table if one is announced. -/
def readGif (file : Text) : Except ImageFault ImageHeader :=
  let version := file.take 6
  let flags := byteAt file 10
  let colours := if flags < 128 then 0 else 3 * Nat.pow 2 (1 + flags % 8)
  if file.length < 13 then .error (.gifTruncated "header")
  else if version != "GIF87a" && version != "GIF89a" then .error (.gifVersion version)
  else if file.length < 13 + colours then .error (.gifTruncated "color table")
  else .ok ⟨"gif", littleEndian ((file.drop 6).take 2), littleEndian ((file.drop 8).take 2)⟩

/-! ## PNG -/

/-- One bit of the checksum. -/
def crcBit (c : UInt32) : UInt32 := if c % 2 == 1 then (c >>> 1) ^^^ 0xEDB88320 else c >>> 1

/-- One byte of the checksum. -/
def crcByte (c : UInt32) (b : UInt8) : UInt32 := Nat.repeat crcBit 8 (c ^^^ b.toUInt32)

/-- The checksum of a chunk. -/
def crc32 (t : Text) : UInt32 := (t.foldl crcByte 0xFFFFFFFF) ^^^ 0xFFFFFFFF

/-- A chunk: its kind, the length of its content and everything behind the kind. -/
structure Chunk where
  kind : Text
  length : Nat
  rest : Text
  deriving Repr

/-- The content of a chunk, whose checksum must be right, and the file behind the chunk. -/
def Chunk.content (c : Chunk) : Except ImageFault (Text × Text) := do
  let (content, rest) ← cut c.length c.rest
  let (sum, rest) ← cut 4 rest
  if bigEndian sum == (crc32 (c.kind ++ content)).toNat then .ok (content, rest)
  else .error (.pngInvalid "invalid checksum")

/-- The chunk that comes next. -/
def nextChunk (file : Text) : Except ImageFault Chunk := do
  let (front, rest) ← cut 8 file
  return ⟨front.drop 4, bigEndian (front.take 4), rest⟩

/-- Depth and colour type that go together. -/
def isPixelFormat (depth colour : Nat) : Bool :=
  (depth == 8 || depth == 16) && [0, 2, 4, 6].contains colour ||
    (depth == 1 || depth == 2 || depth == 4) && colour == 0 || isPalette depth colour
where
  /-- Colours are numbers of a palette. -/
  isPalette (depth colour : Nat) : Bool := [1, 2, 4, 8].contains depth && colour == 3

/-- Checks the content of the first chunk in the order of its fields' importance. -/
def checkFormat (content : Text) : Except ImageFault Unit :=
  let width := bigEndian (content.take 4)
  let height := bigEndian ((content.drop 4).take 4)
  let depth := byteAt content 8
  let colour := byteAt content 9
  if byteAt content 10 != 0 then .error (.pngUnsupported "compression method")
  else if byteAt content 11 != 0 then .error (.pngUnsupported "filter method")
  else if 1 < byteAt content 12 then .error (.pngInvalid "invalid interlace method")
  else if width == 0 || 0x80000000 ≤ width || height == 0 || 0x80000000 ≤ height then
    .error (.pngInvalid "non-positive dimension")
  else if 0x1000000000000000 ≤ width * height then .error (.pngUnsupported "dimension overflow")
  else if !isPixelFormat depth colour then
    .error (.pngUnsupported
      ("bit depth " ++ Text.ofNat depth ++ ", color type " ++ Text.ofNat colour))
  else .ok ()

/-- How far a PNG file was read: up to its format, or for one with a palette up to that. -/
inductive PngStage where
  | start
  | format (header : ImageHeader) (depth : Nat)
  | palette (header : ImageHeader)
  deriving Repr

/-- Either the header, or how far the file was read and what is left of it. -/
abbrev PngStep := ImageHeader ⊕ (PngStage × Text)

/-- Reads the first chunk. -/
def readFormat (c : Chunk) : Except ImageFault PngStep := do
  if c.length != 13 then throw (.pngInvalid "bad IHDR length")
  let (content, _) ← cut 13 c.rest
  checkFormat content
  let (_, rest) ← c.content
  let header : ImageHeader :=
    ⟨"png", bigEndian (content.take 4), bigEndian ((content.drop 4).take 4)⟩
  if isPixelFormat.isPalette (byteAt content 8) (byteAt content 9) then
    return .inr (.format header (byteAt content 8), rest)
  else return .inl header

/-- Reads the palette. -/
def readPalette (header : ImageHeader) (depth : Nat) (c : Chunk) : Except ImageFault PngStep := do
  let count := c.length / 3
  if c.length % 3 != 0 || count == 0 || Nat.pow 2 depth < count then
    throw (.pngInvalid "bad PLTE length")
  let (_, rest) ← c.content
  return .inr (.palette header, rest)

/-- Reads the transparency of a palette, which is the last thing before the pixels. -/
def readTransparency (header : ImageHeader) (c : Chunk) : Except ImageFault PngStep := do
  if 256 < c.length then throw (.pngInvalid "bad tRNS length")
  let _ ← c.content
  return .inl header

/-- Passes a chunk that says nothing about the size. -/
def passChunk (stage : PngStage) (c : Chunk) : Except ImageFault PngStep := do
  if 0x7FFFFFFF < c.length then
    throw (.pngInvalid ("Bad chunk length: " ++ Text.ofNat c.length))
  let (_, rest) ← c.content
  return .inr (stage, rest)

/-- The kinds of chunks whose order matters. -/
def orderedKinds : List Text := ["IHDR", "PLTE", "tRNS", "IDAT", "IEND"]

/-- Reads one chunk. -/
def pngStep (stage : PngStage) (c : Chunk) : Except ImageFault PngStep :=
  if !orderedKinds.contains c.kind then passChunk stage c
  else match stage with
    | .start => if c.kind == "IHDR" then readFormat c else outOfOrder
    | .format header depth => if c.kind == "PLTE" then readPalette header depth c else outOfOrder
    | .palette header =>
      if c.kind == "tRNS" then readTransparency header c
      else if c.kind == "IDAT" then .ok (.inl header)
      else outOfOrder
where
  /-- A chunk that cannot stand here. -/
  outOfOrder : Except ImageFault PngStep := .error (.pngInvalid "chunk out of order")

/-- Reads chunks until the size is known. A chunk takes at least eight bytes. -/
def pngChunks : Nat → PngStage → Text → Except ImageFault ImageHeader
  | 0, _, _ => .error .truncated
  | fuel + 1, stage, file => do
    match ← pngStep stage (← nextChunk file) with
    | .inl header => return header
    | .inr (stage, rest) => pngChunks fuel stage rest

/-- The header of a PNG file. -/
def readPng (file : Text) : Except ImageFault ImageHeader :=
  pngChunks (file.length + 1) .start (file.drop 8)

/-! ## JPEG -/

/-- The marker that comes next: bytes up to one of all ones are passed, and so are fill bytes. -/
def nextMarker? : Text → Option (Nat × Text)
  | a :: b :: rest =>
    if a != 0xFF then nextMarker? (b :: rest)
    else if b == 0 then nextMarker? rest
    else match (b :: rest).dropWhile (· == 0xFF) with
      | marker :: rest => some (marker.toNat, rest)
      | [] => none
  | _ => none

/-- A colour component of a frame: its number, its sampling factors and its table. -/
structure Component where
  id : Nat
  across : Nat
  down : Nat
  table : Nat
  deriving Repr

/-- The components of a frame, three bytes each. -/
def components : Text → List Component
  | id :: sampling :: table :: rest =>
    ⟨id.toNat, sampling.toNat / 16, sampling.toNat % 16, table.toNat⟩ :: components rest
  | _ => []

/-- The sampling factors of the `i`-th of `count` components fit those before it. Up to three
components may be sampled as they like, since factors of one, two and four divide the greatest of
them; of four components the first and the last are sampled alike, and the others once. -/
def samplingFits (count i : Nat) (before : List Component) (c : Component) : Bool :=
  let square (n : Nat) := c.across == n && c.down == n
  let same (k : Nat) := (before[k]?).all fun b => b.across == c.across && b.down == c.down
  match count, i with
  | 4, 0 => square 1 || square 2
  | 4, 1 => square 1
  | 4, 2 => square 1
  | 4, 3 => same 0
  | _, _ => true

/-- Checks the components one after the other. -/
def checkComponents (count : Nat) (before : List Component) :
    List Component → Except ImageFault Unit
  | [] => .ok ()
  | c :: rest =>
    let legal (n : Nat) := 1 ≤ n && n ≤ 4
    if before.any (·.id == c.id) then .error (.jpegInvalid "repeated component identifier")
    else if 3 < c.table then .error (.jpegInvalid "bad Tq value")
    else if !legal c.across || !legal c.down then
      .error (.jpegInvalid "luma/chroma subsampling ratio")
    else if c.across == 3 || c.down == 3 || !samplingFits count before.length before c then
      .error (.jpegUnsupported "luma/chroma subsampling ratio")
    else checkComponents count (before ++ [c]) rest

/-- Reads a frame header of `n` bytes and gives what is behind it. -/
def readFrame (n : Nat) (file : Text) : Except ImageFault (ImageHeader × Text) := do
  if n != 9 && n != 15 && n != 18 then throw (.jpegUnsupported "number of components")
  let count := (n - 6) / 3
  let (frame, rest) ← cut n file
  if byteAt frame 0 != 8 then throw (.jpegUnsupported "precision")
  if byteAt frame 5 != count then throw (.jpegInvalid "SOF has wrong length")
  checkComponents count [] (components (frame.drop 6))
  return (⟨"jpeg", bigEndian ((frame.drop 3).take 2), bigEndian ((frame.drop 1).take 2)⟩, rest)

/-- What is known of a JPEG file before the pixels: the frame, and whether the file announced the
common interchange format. -/
structure JpegState where
  frame : Option ImageHeader := none
  interchange : Bool := false
  deriving Repr

/-- The frame must have been seen. -/
def JpegState.finish (s : JpegState) : Except ImageFault ImageHeader :=
  match s.frame with
  | some header => .ok header
  | none => .error (.jpegInvalid "missing SOF marker")

/-- Markers of segments that say nothing about the size: tables, comments and application data. -/
def isPassedMarker (marker : Nat) : Bool :=
  marker == 0xC4 || marker == 0xDB || marker == 0xDD || (0xE0 ≤ marker && marker ≤ 0xEF) ||
    marker == 0xFE

/-- Reads segments until the size is known. A segment takes at least two bytes. -/
def jpegSegments : Nat → JpegState → Text → Except ImageFault ImageHeader
  | 0, _, _ => .error .truncated
  | fuel + 1, s, file =>
    match nextMarker? file with
    | none => .error .truncated
    | some (marker, rest) =>
      if marker == 0xD9 then .error (.jpegInvalid "missing SOS marker")
      else if 0xD0 ≤ marker && marker ≤ 0xD7 then jpegSegments fuel s rest
      else do
        let (size, rest) ← cut 2 rest
        if bigEndian size < 2 then throw (.jpegInvalid "short segment length")
        let n := bigEndian size - 2
        if marker == 0xC0 || marker == 0xC1 || marker == 0xC2 then
          if s.frame.isSome then throw (.jpegInvalid "multiple SOF markers")
          let (header, rest) ← readFrame n rest
          if s.interchange then return header
          else jpegSegments fuel { s with frame := some header } rest
        else if marker == 0xDA then s.finish
        else if isPassedMarker marker then
          let (segment, rest) ← cut n rest
          let s := if marker == 0xE0 && 5 ≤ n then
              { s with interchange := Text.startsWith segment "JFIF\x00" }
            else s
          jpegSegments fuel s rest
        else if marker < 0xC0 then throw (.jpegInvalid "unknown marker")
        else throw (.jpegUnsupported "unknown marker")

/-- The header of a JPEG file. -/
def readJpeg (file : Text) : Except ImageFault ImageHeader :=
  jpegSegments (file.length + 1) {} (file.drop 2)

/-! ## Signatures -/

/-- The signature of a PNG file. -/
def pngSignature : Text := [0x89, 0x50, 0x4E, 0x47, 0x0D, 0x0A, 0x1A, 0x0A]

/-- The header of an image file. -/
def read (file : Text) : Except ImageFault ImageHeader :=
  if Text.startsWith file "GIF8" && byteAt file 5 == 0x61 then readGif file
  else if Text.startsWith file [0xFF, 0xD8] then readJpeg file
  else if Text.startsWith file pngSignature then readPng file
  else .error .unknownFormat

end ImageHeader

end ViewBinder
