-- The command line: `compile` writes the programs of a project, `check` tells which of them are
-- stale, and `help` shows how to call the command. A call is a function of its arguments and the
-- files it finds.
import ViewBinder.Project.Run

namespace ViewBinder.CommandLine

/-- How to call the command. -/
def usage : List Text := [
  "uibind - compiles UI templates into Go",
  "Usage: uibind <command> [flags] [path]",
  "",
  "Commands:",
  "  compile <path>   Compile every template under path",
  "  check <path>     Report templates whose generated file is stale",
  "  help             Show help",
  "",
  "Flags:",
  "  -config file     Configuration file (default <path>/uibind.json)",
  "  -v               Verbose logging"]

/-- The flags of a command, one after the other. -/
def flagUsage (command : Text) : List Text := [
  "Usage of " ++ command ++ ":",
  "  -config string",
  "    \tconfiguration file",
  "  -v\tverbose logging"]

/-! ## Flags -/

/-- What the flags of a call say. -/
structure Flags where
  /-- The settings file; empty if none is given. -/
  config : Text := []
  verbose : Bool := false
  deriving DecidableEq, Repr

/-- Why flags cannot be taken. -/
inductive FlagFault where
  /-- Help was asked for. -/
  | help
  | malformed (arg : Text)
  | unknown (name : Text)
  | notBoolean (name value : Text)
  | noValue (name : Text)
  deriving DecidableEq, Repr

/-- The wording of a fault; asking for help is none. -/
def FlagFault.message? : FlagFault → Option Text
  | help => none
  | malformed arg => some ("bad flag syntax: " ++ arg)
  | unknown name => some ("flag provided but not defined: -" ++ name)
  | notBoolean name value =>
    some ("invalid boolean value " ++ Text.quote value ++ " for -" ++ name ++ ": parse error")
  | noValue name => some ("flag needs an argument: -" ++ name)

/-- The spellings of a truth value. -/
def boolean? (t : Text) : Option Bool :=
  let yes : List Text := ["1", "t", "T", "TRUE", "true", "True"]
  let no : List Text := ["0", "f", "F", "FALSE", "false", "False"]
  if yes.contains t then some true else if no.contains t then some false else none

/-- An argument as it is written: a flag with a value or without, the end of the flags, or anything
else. -/
inductive Argument where
  | flag (name : Text) (value : Option Text)
  | endOfFlags
  | malformed
  | other
  deriving DecidableEq, Repr

/-- The name of a flag and the value behind its first equals sign that is not in front. -/
def nameAndValue (t : Text) : Argument :=
  match t with
  | [] => .malformed
  | b :: rest =>
    if b == '-'.toUInt8 || b == '='.toUInt8 then .malformed
    else match rest.idxOf? '='.toUInt8 with
      | some i => .flag (b :: rest.take i) (some (rest.drop (i + 1)))
      | none => .flag t none

/-- Reads one argument. One minus sign or two stand in front of a flag. -/
def Argument.read (arg : Text) : Argument :=
  if arg == "--" then .endOfFlags
  else if arg == "-" || !Text.startsWith arg "-" then .other
  else nameAndValue (Text.dropFront (arg.drop 1) "-")

/-- Takes the flags from the front of the arguments; the other arguments are left. -/
def readFlags (flags : Flags) (args : List Text) : Except FlagFault (Flags × List Text) :=
  match args with
  | [] => .ok (flags, [])
  | arg :: rest =>
    match Argument.read arg with
    | .other => .ok (flags, arg :: rest)
    | .endOfFlags => .ok (flags, rest)
    | .malformed => .error (.malformed arg)
    | .flag name value =>
      if name == "v" then
        match value with
        | none => readFlags { flags with verbose := true } rest
        | some v =>
          match boolean? v with
          | some verbose => readFlags { flags with verbose } rest
          | none => .error (.notBoolean name v)
      else if name == "config" then
        match value, rest with
        | some config, rest => readFlags { flags with config } rest
        | none, config :: rest => readFlags { flags with config } rest
        | none, [] => .error (.noValue name)
      else if name == "help" || name == "h" then .error .help
      else .error (.unknown name)

/-! ## Calls -/

/-- What a call answers. -/
structure Response where
  status : Nat
  /-- The lines of the answer. -/
  output : List Text := []
  /-- The lines of the journal and of complaints. -/
  complaints : List Text := []
  /-- The files after the call. -/
  tree : FileTree
  deriving Repr

/-- The lines of a journal; debug records are shown on request only. -/
def journalLines (verbose : Bool) (journal : List Record) : List Text :=
  (journal.filter fun r => verbose || r.severity != .debug).map Record.line

/-- The last line of a call that failed. -/
def complaint (reason : Text) : Text := "uibind: " ++ reason

/-- Runs the project in a directory. `here` is where relative paths start. -/
def runProject (load : Project.SourceLoader) (here : Text) (mode : Mode) (flags : Flags)
    (root : Text) (t : FileTree) : Response :=
  match Project.ofDirectory load t here root flags.config with
  | .error reason => { status := 1, complaints := [complaint reason], tree := t }
  | .ok p =>
    let result := p.run mode t
    let lines := journalLines flags.verbose result.journal
    match result.failure with
    | none => { status := 0, complaints := lines, tree := result.tree }
    | some reason =>
      { status := 1, complaints := lines ++ [complaint reason], tree := result.tree }

/-- The way a command runs a project. -/
def mode? (command : Text) : Option Mode :=
  if command == "compile" then some .write else if command == "check" then some .check else none

/-- Answers a call: the first argument is the command, then come its flags and the directory, which
is the current one if none is given. -/
def answer (load : Project.SourceLoader) (here : Text) (args : List Text) (t : FileTree) :
    Response :=
  match args with
  | [] => { status := 1, output := usage, tree := t }
  | command :: args =>
    match mode? command with
    | none => { status := if command == "help" then 0 else 1, output := usage, tree := t }
    | some mode =>
      match readFlags {} args with
      | .error fault =>
        { status := if fault == .help then 0 else 2,
          complaints := fault.message?.toList ++ flagUsage command, tree := t }
      | .ok (flags, rest) => runProject load here mode flags (rest.headD ".") t

/-- Answers a call where no sources can be loaded. -/
def run : Text → List Text → FileTree → Response := answer Project.noSources

end ViewBinder.CommandLine
