-- Places in a source file: a location names a byte offset with its line and column, and shows the
-- text around it. The line index finds line and column of an offset; the context is as long as
-- its limits on bytes and lines allow.
import ViewBinder.Text.Basic

namespace ViewBinder

/-- A named source text. -/
structure SourceFile where
  content : Text
  url : Text
  deriving DecidableEq, Repr

/-- A place in a file. A negative offset means that only the line is known. -/
structure Location where
  file : Option SourceFile
  offset : Int
  line : Int
  column : Int
  deriving DecidableEq, Repr

/-- The newline byte. -/
def newline : UInt8 := 0x0A

namespace Location

/-- `url:line:column`, or the url alone when there is no line. -/
def text (l : Location) : Text :=
  let url := match l.file with
    | some f => f.url
    | none => []
  if 0 < l.line then url ++ ":" ++ Text.ofInt l.line ++ ":" ++ Text.ofInt l.column else url

/-- The text of a location that may be missing. -/
def text? : Option Location → Text
  | some l => l.text
  | none => "<unknown>"

/-- Where a context begins: it goes back from `start` by at most `room` bytes, with `seen` newlines
behind it. The newline that is the last of `maxLines` stays in front of it. -/
def contextStart (content : Text) (maxLines : Nat) : (room seen start : Nat) → Nat
  | 0, _, start => start
  | _ + 1, _, 0 => 0
  | room + 1, seen, start + 1 =>
    if content[start]? == some newline then
      if seen + 1 == maxLines then start + 1
      else contextStart content maxLines room (seen + 1) start
    else contextStart content maxLines room seen start

/-- Where a context ends: it goes on from `stop` by at most `room` bytes, with `seen` newlines
before it. It stops in front of the newline that is the last of `maxLines`. -/
def contextStop (content : Text) (maxLines : Nat) : (room seen stop : Nat) → Nat
  | 0, _, stop => stop
  | room + 1, seen, stop =>
    match content[stop]? with
    | none => stop
    | some b =>
      if b == newline then
        if seen + 1 == maxLines then stop
        else contextStop content maxLines room (seen + 1) (stop + 1)
      else contextStop content maxLines room seen (stop + 1)

/-- The text before and after an offset, each within the limits; an offset past the end is the
end. -/
def contextAt (content : Text) (offset maxChars maxLines : Nat) : Text × Text :=
  let offset := min offset content.length
  let start := contextStart content maxLines maxChars 0 offset
  let stop := contextStop content maxLines maxChars 0 offset
  ((content.take offset).drop start, (content.take stop).drop offset)

/-- The text around the location; none without a file, an offset or any content. -/
def context? (l : Location) (maxChars maxLines : Nat) : Option (Text × Text) :=
  match l.file with
  | none => none
  | some f =>
    if l.offset < 0 || f.content.isEmpty then none
    else some (contextAt f.content l.offset.toNat maxChars maxLines)

end Location

/-- A stretch of source from a start to an end, with an optional remark. -/
structure Span where
  start : Option Location
  stop : Option Location
  details : Text := []
  deriving DecidableEq, Repr

namespace Span

/-- The span between two locations; without an end it is empty. -/
def between (start stop : Option Location) : Span :=
  ⟨start, stop <|> start, []⟩

/-- The source text of the span. -/
def text (s : Span) : Text :=
  match s.start, s.stop with
  | some a, some b =>
    match a.file with
    | some f =>
      if a.offset < 0 || (f.content.length : Int) < b.offset || b.offset < a.offset then []
      else (f.content.take b.offset.toNat).drop a.offset.toNat
    | none => []
  | _, _ => []

end Span

/-! ## Lines -/

/-- The offsets at which the lines of a text begin, counted from `offset`. -/
def lineStartsFrom (offset : Nat) : Text → List Nat
  | [] => []
  | b :: rest =>
    if b == newline then (offset + 1) :: lineStartsFrom (offset + 1) rest
    else lineStartsFrom (offset + 1) rest

/-- The offsets at which the lines of a text begin. -/
def lineStarts (source : Text) : List Nat := 0 :: lineStartsFrom 0 source

/-- The least index of a range at which a test holds that goes on holding once it does, found by
halving the range; the end of the range when it holds at none. `fuel` bounds the halvings. -/
def leastIndex (test : Nat → Bool) : (fuel low high : Nat) → Nat
  | 0, low, _ => low
  | fuel + 1, low, high =>
    if low < high then
      let middle := (low + high) / 2
      if test middle then leastIndex test fuel low middle
      else leastIndex test fuel (middle + 1) high
    else low

/-- Line and column of an offset, both counted from one. -/
def positionIn (starts : List Nat) (offset : Nat) : Nat × Nat :=
  let line := leastIndex (fun i => offset < starts.getD i 0) starts.length 0 starts.length - 1
  (line + 1, offset - starts.getD line 0 + 1)

/-- The location of an offset in a file. -/
def SourceFile.locate (f : SourceFile) (offset : Nat) : Location :=
  let (line, column) := positionIn (lineStarts f.content) offset
  ⟨some f, offset, line, column⟩

end ViewBinder
