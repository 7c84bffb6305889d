-- The command itself: it takes in the files a call can read, answers the call, and puts the files
-- that changed back.
import ViewBinder.CommandLine

namespace ViewBinder.Main

/-- A text as bytes. -/
def bytes (t : Text) : ByteArray := ⟨t.toArray⟩

/-- A path as the system takes it. -/
def name (path : Text) : String := (String.fromUTF8? (bytes path)).getD ""

/-- The bytes of a file, or nothing if it cannot be read. -/
def content? (path : Text) : IO (Option Text) := do
  try return some (← IO.FS.readBinFile (name path)).data.toList
  catch _ => return none

/-- The names in a directory, or nothing if it is none. -/
def entries? (path : Text) : IO (Option (List Text)) := do
  try return some ((← (← IO.FS.realPath (name path)).readDir).toList.map fun e => e.fileName)
  catch _ => return none

/-- How many directories may stand in each other. -/
def deepest : Nat := 64

/-- The tree with the file or directory at a path, and with what is below it, `depth` levels
down. -/
def takeIn : Nat → FileTree → Text → IO FileTree
  | 0, t, _ => return t
  | depth + 1, t, path => do
    match ← entries? path with
    | some names =>
      let t := { t with folders := t.folders ++ [path] }
      names.foldlM (fun t n => takeIn depth t (Path.join [path, n])) t
    | none =>
      match ← content? path with
      | some content => return t.write path content
      | none => return t

/-- The tree with the file at a path, if there is one. -/
def takeInFile (t : FileTree) (path : Text) : IO FileTree := do
  match ← content? path with
  | some content => return t.write (Path.clean path) content
  | none =>
    match ← entries? path with
    | some _ => return { t with folders := t.folders ++ [Path.clean path] }
    | none => return t

/-- The files a run of a project can read: everything below its root, its settings and the
manifests they name. -/
def filesOf (here root config : Text) : IO FileTree := do
  let t ← takeIn deepest { files := [] } (Path.clean root)
  let path := Project.settingsPath root config
  let t ← takeInFile t path
  match Project.readSettings t here path false with
  | .ok (some file) =>
    (file.apply (SettingsFile.projectRoot path) {}).manifests.foldlM takeInFile t
  | _ => return t

/-- The files a call can read. -/
def filesFor (here : Text) : List Text → IO FileTree
  | command :: args => do
    match CommandLine.mode? command, CommandLine.readFlags {} args with
    | some _, .ok (flags, rest) => filesOf here (rest.headD ".") flags.config
    | _, _ => return { files := [] }
  | [] => return { files := [] }

/-- Writes the files that are not as they were. -/
def putBack (old new : FileTree) : IO Unit := do
  for (path, content) in new.files do
    if old.files.lookup path != some content then
      IO.FS.writeBinFile (name path) (bytes content)

/-- Writes lines to a stream. -/
def say (stream : IO.FS.Stream) (lines : List Text) : IO Unit := do
  for line in lines do stream.write (bytes (line ++ [newline]))
  stream.flush

/-- Answers a call and gives its status. -/
def answer (args : List Text) : IO UInt32 := do
  let here := Text.ofString (← IO.currentDir).toString
  let files ← filesFor here args
  let response := CommandLine.run here args files
  putBack files response.tree
  say (← IO.getStdout) response.output
  say (← IO.getStderr) response.complaints
  return response.status.toUInt32

end ViewBinder.Main

/-- The command with its arguments. -/
def main (args : List String) : IO UInt32 :=
  ViewBinder.Main.answer (args.map ViewBinder.Text.ofString)
