-- Slash separated paths: the last element, the shortest form of a path, the paths a file tree
-- accepts, and patterns of paths. In a pattern `*` stands for any run of bytes and `?` for any
-- character but a slash, brackets list characters, and a backslash takes the meaning away from what
-- follows. A run that follows a star is taken at the first place where it fits, and the choice is
-- never undone.
import ViewBinder.Text.Utf8

namespace ViewBinder.Path

/-- The byte between the elements of a path. -/
def slash : UInt8 := '/'.toUInt8

/-- The elements of a path, empty ones included. -/
def elements (path : Text) : List Text := path.splitOn slash

/-- The path without the slashes at its end. -/
def trimEnd (path : Text) : Text := (path.reverse.dropWhile (· == slash)).reverse

/-- The last element of a path; `.` for the empty path and `/` for one of slashes only. -/
def base (path : Text) : Text :=
  if path.isEmpty then "."
  else
    let path := trimEnd path
    if path.isEmpty then "/" else (elements path).getLastD []

/-- Everything in front of the last element, cleaned. -/
def upTo (path : Text) : Text :=
  match path.lastIndexOf? slash with
  | some i => path.take (i + 1)
  | none => []

/-- The elements that count, innermost first: an empty element and `.` go, and `..` takes the
element before it away. At the root `..` has nothing to take away; elsewhere it stays. -/
def settle (rooted : Bool) : List Text → List Text → List Text
  | kept, [] => kept
  | kept, element :: rest =>
    if element.isEmpty || element == "." then settle rooted kept rest
    else if element == ".." then
      match kept with
      | [] => settle rooted (if rooted then [] else [element]) rest
      | last :: others =>
        if last == ".." then settle rooted (element :: kept) rest else settle rooted others rest
    else settle rooted (element :: kept) rest

/-- The shortest path that means the same. -/
def clean (path : Text) : Text :=
  let rooted := Text.startsWith path "/"
  let kept := Text.join "/" (settle rooted [] (elements path)).reverse
  if rooted then "/" ++ kept else if kept.isEmpty then "." else kept

/-- Paths joined by slashes and cleaned; empty ones are left out. -/
def join (paths : List Text) : Text :=
  match paths.filter (!·.isEmpty) with
  | [] => []
  | paths => clean (Text.join "/" paths)

/-- The directory of a path. -/
def directory (path : Text) : Text := clean (upTo path)

/-- The path starts at the root of all files. -/
def isAbsolute (path : Text) : Bool := Text.startsWith path "/"

/-- The path as seen from the root of all files, when relative paths start at `here`. -/
def absolute (here path : Text) : Text :=
  if isAbsolute path then clean path else join [here, path]

/-- A path that a file tree accepts: characters only, and no empty, `.` or `..` element but for the
root itself. -/
def isValid (path : Text) : Bool :=
  path.isValid && (path == "." || (elements path).all fun e => !e.isEmpty && e != "." && e != "..")

/-- The extension of the last element, from its last dot on. -/
def extension (path : Text) : Text :=
  let last := (elements path).getLastD []
  match last.lastIndexOf? '.'.toUInt8 with
  | some i => last.drop i
  | none => []

/-! ## Patterns -/

/-- A part of a pattern. -/
inductive GlobPart where
  | star
  /-- One character other than a slash. -/
  | any
  | byte (b : UInt8)
  /-- One character that is in some of the ranges, or in none of them. -/
  | oneOf (negated : Bool) (ranges : List (Nat × Nat))
  deriving DecidableEq, Repr

namespace Glob

/-! ### Reading patterns -/

/-- A character in brackets. The brackets must go on after it. -/
def readBound (t : Text) : Option (Nat × Text) :=
  match t with
  | [] => none
  | b :: rest =>
    if b == '-'.toUInt8 || b == ']'.toUInt8 then none
    else
      let t := if b == '\\'.toUInt8 then rest else t
      let (code, size) := Text.decodeHead t
      let rest := t.drop size
      if t.isEmpty || rest.isEmpty || (code == Text.replacement && size == 1) then none
      else some (code, rest)

/-- One range in brackets. -/
def readRange (t : Text) : Option ((Nat × Nat) × Text) := do
  let (low, t) ← readBound t
  match t with
  | b :: rest =>
    if b == '-'.toUInt8 then
      let (high, t) ← readBound rest
      return ((low, high), t)
    else return ((low, low), t)
  | [] => none

/-- The ranges up to the closing bracket; there must be one at least. -/
def readRanges : Nat → List (Nat × Nat) → Text → Option (List (Nat × Nat) × Text)
  | 0, _, _ => none
  | fuel + 1, ranges, t =>
    match t, ranges with
    | b :: rest, _ :: _ =>
      if b == ']'.toUInt8 then some (ranges, rest)
      else (readRange t).bind fun (range, t) => readRanges fuel (ranges ++ [range]) t
    | _, _ => (readRange t).bind fun (range, t) => readRanges fuel (ranges ++ [range]) t

/-- What stands in brackets, after the opening one. -/
def readBrackets (t : Text) : Option (GlobPart × Text) :=
  let negated := Text.startsWith t "^"
  (readRanges (t.length + 1) [] (Text.dropFront t "^")).map fun (ranges, rest) =>
    (.oneOf negated ranges, rest)

/-- The parts of a pattern, if it is well formed. -/
def readParts : Nat → Text → Option (List GlobPart)
  | _, [] => some []
  | 0, _ => none
  | fuel + 1, b :: rest =>
    if b == '*'.toUInt8 then (readParts fuel rest).map (.star :: ·)
    else if b == '?'.toUInt8 then (readParts fuel rest).map (.any :: ·)
    else if b == '['.toUInt8 then
      (readBrackets rest).bind fun (part, rest) => (readParts fuel rest).map (part :: ·)
    else if b == '\\'.toUInt8 then
      match rest with
      | [] => none
      | c :: rest => (readParts fuel rest).map (.byte c :: ·)
    else (readParts fuel rest).map (.byte b :: ·)

/-! ### Matching -/

/-- Parts without a star, and whether a star stands in front of them. -/
structure Run where
  starred : Bool
  parts : List GlobPart
  deriving DecidableEq, Repr

/-- A part put in front of runs. -/
def addPart : GlobPart → List Run → List Run
  | .star, ⟨false, parts⟩ :: runs => ⟨true, parts⟩ :: runs
  | .star, [] => [⟨true, []⟩]
  | .star, runs => runs
  | part, ⟨false, parts⟩ :: runs => ⟨false, part :: parts⟩ :: runs
  | part, runs => ⟨false, [part]⟩ :: runs

/-- The runs of a pattern. -/
def runsOf (parts : List GlobPart) : List Run := parts.foldr addPart []

/-- What is left of a name after one part. -/
def takePart (part : GlobPart) (name : Text) : Option Text :=
  match name with
  | [] => none
  | b :: rest =>
    let (code, size) := Text.decodeHead name
    match part with
    | .star => none
    | .any => if b == slash then none else some (name.drop size)
    | .byte c => if b == c then some rest else none
    | .oneOf negated ranges =>
      if (ranges.any fun r => r.1 ≤ code && code ≤ r.2) == negated then none
      else some (name.drop size)

/-- What is left of a name after some parts. -/
def takeParts (parts : List GlobPart) (name : Text) : Option Text :=
  parts.foldlM (fun name part => takePart part name) name

/-- The name and what is left of it after each byte in front of its first slash. -/
def ends : Text → List Text
  | [] => [[]]
  | b :: rest => if b == slash then [b :: rest] else (b :: rest) :: ends rest

/-- A name matches the runs of a pattern. -/
def matchesRuns : List Run → Text → Bool
  | [], name => name.isEmpty
  | [⟨true, []⟩], name => !name.elem slash
  | run :: runs, name =>
    let places := if run.starred then ends name else [name]
    let left := places.filterMap (takeParts run.parts)
    match left.find? fun rest => rest.isEmpty || !runs.isEmpty with
    | some rest => matchesRuns runs rest
    | none => false

/-- A name matches a pattern. Nothing matches a malformed pattern. -/
def matchesName (pattern name : Text) : Bool :=
  match readParts pattern.length pattern with
  | some parts => matchesRuns (runsOf parts) name
  | none => false

end Glob

end ViewBinder.Path
