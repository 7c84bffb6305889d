-- Trees of files: what stands at a path, and what reading it gives. A tree in memory and one on a
-- disk hold the same files but refuse paths in different words.
import ViewBinder.Path

namespace ViewBinder

/-- Files by their clean paths. A path in front of a slash is a directory. -/
structure FileTree where
  files : List (Text × Text)
  /-- Directories that may hold no file. -/
  folders : List Text := []
  deriving DecidableEq, Repr

/-- What stands at a path. -/
inductive Standing where
  | file (content : Text)
  | directory
  | nothing
  /-- A part of the path in front of a slash is a file. -/
  | behindFile
  deriving DecidableEq, Repr

namespace FileTree

/-- The path is a directory; the root always is. -/
def isDirectory (t : FileTree) (path : Text) : Bool :=
  path == "." || t.folders.elem path || t.files.any fun f => Text.startsWith f.1 (path ++ "/")

/-- A part of the path in front of a slash is a file. -/
def isBehindFile (t : FileTree) (path : Text) : Bool :=
  t.files.any fun f => Text.startsWith path (f.1 ++ "/")

/-- What stands at a path without empty, `.` or `..` elements. -/
def lookup (t : FileTree) (path : Text) : Standing :=
  match t.files.lookup path with
  | some content => .file content
  | none =>
    if t.isDirectory path then .directory
    else if t.isBehindFile path then .behindFile
    else .nothing

/-- The tree with a file written; one that was there keeps its place. -/
def write (t : FileTree) (path content : Text) : FileTree :=
  if (t.files.lookup path).isSome then
    { t with files := t.files.map fun f => if f.1 == path then (path, content) else f }
  else { t with files := t.files ++ [(path, content)] }

/-- The files in or below a directory, with what follows the directory in their paths. -/
def filesBelow (t : FileTree) (path : Text) : List Text :=
  if path == "." then
    (t.files.map (·.1)).filter fun f => !Path.isAbsolute f && !Text.startsWith f "../"
  else
    let lead := path ++ "/"
    (t.files.map (·.1)).filterMap fun f =>
      if Text.startsWith f lead then some (f.drop lead.length) else none

end FileTree

/-- Why a path cannot be read or written. -/
inductive Obstacle where
  | missing
  | directory
  /-- A part of the path in front of a slash is a file. -/
  | notDirectory
  deriving DecidableEq, Repr

/-- The wording of an obstacle. -/
def Obstacle.message : Obstacle → Text
  | missing => "no such file or directory"
  | directory => "is a directory"
  | notDirectory => "not a directory"

namespace FileTree

/-- The content of the file at a path. -/
def read (t : FileTree) (path : Text) : Except Obstacle Text :=
  match t.lookup (Path.clean path) with
  | .file content => .ok content
  | .directory => .error .directory
  | .behindFile => .error .notDirectory
  | .nothing => .error .missing

/-- A failed reading in words: a directory can be opened, but not read. -/
def readFailure (path : Text) (o : Obstacle) : Text :=
  let act : Text := if o == .directory then "read " else "open "
  act ++ path ++ ": " ++ o.message

/-- The tree with a file written at a path, if one can stand there. -/
def store (t : FileTree) (path content : Text) : Except Obstacle FileTree :=
  let place := Path.clean path
  match t.lookup place with
  | .file _ => .ok (t.write place content)
  | .directory => .error .directory
  | .behindFile => .error .notDirectory
  | .nothing =>
    if t.isDirectory (Path.directory place) then .ok (t.write place content) else .error .missing

end FileTree

/-- Where a tree is kept. -/
inductive Storage where
  | memory
  | disk
  deriving DecidableEq, Repr

/-- What reading a file gives. -/
inductive Reading where
  | content (bytes : Text)
  | missing
  | refused (reason : Text)
  deriving DecidableEq, Repr

/-- A directory of a tree that files are read from. -/
structure FileSource where
  tree : FileTree
  base : Text := "."
  storage : Storage
  deriving Repr

namespace FileSource

/-- What stands at a path below the directory. -/
def lookup (s : FileSource) (path : Text) : Standing := s.tree.lookup (Path.join [s.base, path])

/-- A file or directory is there. -/
def has (s : FileSource) (path : Text) : Bool :=
  Path.isValid path &&
    match s.lookup path with
    | .file _ => true
    | .directory => true
    | _ => false

/-- The content of a file. A tree in memory does not know paths that no file can have. -/
def read (s : FileSource) (path : Text) : Reading :=
  if !Path.isValid path then
    match s.storage with
    | .memory => .missing
    | .disk => .refused ("readfile " ++ path ++ ": invalid argument")
  else match s.lookup path, s.storage with
    | .file content, _ => .content content
    | .directory, .memory => .refused ("read " ++ path ++ ": invalid argument")
    | .directory, .disk => .refused ("read " ++ path ++ ": is a directory")
    | .behindFile, .disk => .refused ("open " ++ path ++ ": not a directory")
    | _, _ => .missing

end FileSource

end ViewBinder
