/-!
# Command line arguments

A command line names one file and may hold options in any place. An option with a value takes the
next argument, or what follows it in the same argument. After `--` every argument is a file name.
-/

namespace ScopedText.Command

structure Request where
  file : String
  /-- The grammar by its name, an alias or its scope name. -/
  grammar : String := "source.lua"
  /-- A file with a grammar that is added first. -/
  grammarFile : Option String := none
  json : Bool := false
  lines : Bool := false
  indent : Bool := false
deriving DecidableEq, Repr

inductive Flag
  | json
  | lines
  | indent
  | help
deriving DecidableEq, Repr

inductive Setting
  | grammar
  | grammarFile
deriving DecidableEq, Repr

/-- The options and files of a command line, as far as it has been read. -/
structure Given where
  files : List String := []
  flags : List Flag := []
  settings : List (Setting × String) := []
deriving DecidableEq, Repr

/-- Why a command line is not carried out. -/
inductive Refusal
  /-- The command line is wrong. -/
  | usage
  /-- It asks how the program is used. -/
  | help
deriving DecidableEq, Repr

namespace Given

/-- Adds the name of a file, which must be the only one and not be empty. -/
def addFile (given : Given) (name : String) : Except Refusal Given :=
  if given.files.isEmpty && !name.isEmpty then .ok { given with files := [name] }
  else .error .usage

/-- Adds a flag, which must not have been given. -/
def addFlag (given : Given) (flag : Flag) : Except Refusal Given :=
  if flag = .help then .error .help
  else if given.flags.contains flag then .error .usage
  else .ok { given with flags := flag :: given.flags }

/-- Adds a value, which must not have been given; the name of a file must not be empty. -/
def addSetting (given : Given) (s : Setting) (value : String) : Except Refusal Given :=
  if given.settings.any (·.1 == s) || (s = .grammarFile && value.isEmpty) then .error .usage
  else .ok { given with settings := (s, value) :: given.settings }

end Given

/-- An argument by its form. -/
inductive Argument
  | file (name : String)
  | flag (f : Flag)
  | setting (s : Setting) (value : Option String)
  /-- What follows are names of files. -/
  | endOfOptions
  /-- No option has this form. -/
  | unknown
deriving DecidableEq, Repr

namespace Argument

def ofLongName (name : String) (value : Option String) : Argument :=
  match name, value with
  | "grammar", _ => .setting .grammar value
  | "grammar-file", _ => .setting .grammarFile value
  | "json", none => .flag .json
  | "lines", none => .flag .lines
  | "indent", none => .flag .indent
  | "help", none => .flag .help
  | _, _ => .unknown

/-- The value in the same argument as a short option; an equals sign before it does not count. -/
def attached : List Char → Option String
  | [] => none
  | '=' :: value => some (String.ofList value)
  | value => some (String.ofList value)

def ofString (argument : String) : Argument :=
  match argument.toList with
  | ['-', '-'] => .endOfOptions
  | '-' :: '-' :: option =>
    let name := option.takeWhile (· != '=')
    let value := match option.dropWhile (· != '=') with
      | _ :: value => some (String.ofList value)
      | [] => none
    ofLongName (String.ofList name) value
  | '-' :: 'g' :: value => .setting .grammar (attached value)
  | '-' :: 'h' :: _ => .flag .help
  | '-' :: _ :: _ => .unknown
  | _ => .file argument

end Argument

def Given.read (given : Given) : List String → Except Refusal Given
  | [] => .ok given
  | argument :: rest => match Argument.ofString argument with
    | .file name => do
      let given ← given.addFile name
      given.read rest
    | .flag f => do
      let given ← given.addFlag f
      given.read rest
    | .setting s (some value) => do
      let given ← given.addSetting s value
      given.read rest
    | .setting s none => match rest with
      | [] => .error .usage
      | value :: rest => match Argument.ofString value with
        | .file value => do
          let given ← given.addSetting s value
          given.read rest
        | _ => .error .usage
    | .endOfOptions => rest.foldlM Given.addFile given
    | .unknown => .error .usage

/-- What a command line asks for. The indentation hints cannot be asked for together with a form of
the tokens. -/
def Request.ofArguments (arguments : List String) : Except Refusal Request := do
  let given ← ({} : Given).read arguments
  let indent := given.flags.contains .indent
  let json := given.flags.contains .json
  let lines := given.flags.contains .lines
  if indent && (json || lines) then throw .usage
  match given.files with
  | [file] =>
    return {
      file
      grammar := (given.settings.lookup .grammar).getD "source.lua"
      grammarFile := given.settings.lookup .grammarFile
      json, lines, indent }
  | _ => throw .usage

end ScopedText.Command
