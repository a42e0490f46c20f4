import BuildMatrix.FileSystem.Layout
import BuildMatrix.Shell.Octets
import BuildMatrix.Text.Blank

/-!
# Programs

A program is an executable file. The tools that every host has are files with a mark; any other
program is a script whose first line names the program that interprets it.
-/

namespace BuildMatrix.Shell

inductive Executable where
  | tool (name : String)
  /-- Executed by the program at `interpreter`, which is given the arguments and then the script. -/
  | script (interpreter : String) (arguments : List String)
deriving DecidableEq, Repr

def toolNames : List String :=
  ["sh", "dash", "[", "basename", "cat", "chmod", "cp", "dirname", "echo", "env", "false", "grep",
    "head", "kill", "ln", "ls", "mkdir", "mv", "printf", "pwd", "readlink", "rm", "rmdir", "seq",
    "sleep", "sort", "tail", "tee", "test", "touch", "tr", "true", "uname", "wc", "yes"]

def toolMark : Bytes := 0x7F :: Utf8.encode "ELF"

def toolContents (name : String) : Bytes := toolMark ++ Utf8.encode name

def toolDirectories : List String := ["/bin", "/usr/bin"]

def tools : Layout :=
  toolDirectories.flatMap fun directory =>
    toolNames.map fun name => (directory ++ "/" ++ name, .file (toolContents name) true)

def withTools (files : FileSystem) : FileSystem := Layout.make "/" files tools

def tool? (contents : Bytes) : Option String :=
  toolNames.find? fun name => toolContents name == contents

/-- The interpreter that the first line of a script names, with at most one argument. -/
def interpreterLine? (contents : Bytes) : Option (String × List String) :=
  match contents with
  | 0x23 :: 0x21 :: rest =>
    let isBlank := fun (c : Char) => c == ' ' || c == '\t'
    let line := ((charsOfBytes rest).takeWhile (· != '\n')).dropWhile isBlank
    let line := (line.reverse.dropWhile isBlank).reverse
    let name := line.takeWhile fun c => !isBlank c
    let argument := (line.dropWhile fun c => !isBlank c).dropWhile isBlank
    if name.isEmpty then none
    else some (toText (String.ofList name),
      if argument.isEmpty then [] else [toText (String.ofList argument)])
  | _ => none

/-- What the file that a path leads to can be executed as. -/
def executable (files : FileSystem) (path : String) : Except FileError Executable := do
  match ← files.lookup true path with
  | .absent _ => throw .missing
  | .present _ (.file contents true) =>
    match tool? contents, interpreterLine? contents with
    | some name, _ => pure (.tool name)
    | none, some (interpreter, arguments) => pure (.script interpreter arguments)
    | none, none => throw .badFormat
  | .present _ _ => throw .denied

/-- The directories that a search path lists; an empty part is the current directory. -/
def searchDirectories (path : String) : List String :=
  (Text.splitAt ':' path.toList).map fun part => if part.isEmpty then "." else String.ofList part

/--
A tool that is started: its name, the name by which it is called, the path of the file that was
looked for and the first arguments.
-/
structure Launch where
  tool : String
  name : String
  path : String
  arguments : List String
deriving DecidableEq, Repr

/-- The number of scripts that may interpret each other. -/
def scriptLimit : Nat := 4

/-- How a path that starts at the directory `base` is started. -/
def launchWithin (files : FileSystem) (base : String) :
    (fuel : Nat) → String → Except FileError Launch
  | 0, _ => .error .tooManyLinks
  | fuel + 1, path => do
    match ← executable files (Path.join base path) with
    | .tool name => pure ⟨name, path, path, []⟩
    | .script interpreter arguments =>
      let launch ← launchWithin files base fuel interpreter
      pure { launch with path, arguments := launch.arguments ++ arguments ++ [path] }

/-- How a path that starts at the directory `base` is started. -/
def launch (files : FileSystem) (base path : String) : Except FileError Launch :=
  launchWithin files base (scriptLimit + 1) path

/-- How the first path in a list is started for which that is possible. -/
def firstLaunch (files : FileSystem) (base : String) (denied : Bool) :
    List String → Except FileError Launch
  | [] => .error (if denied then .denied else .missing)
  | path :: rest =>
    match launch files base path with
    | .ok launch => .ok launch
    | .error .denied => firstLaunch files base true rest
    | .error .badFormat => .error .badFormat
    | .error _ => firstLaunch files base denied rest

/--
Looks for a program: a name with a slash is a path, and any other one is looked for in the search
path. Relative paths start at the directory `base`.
-/
def locate (files : FileSystem) (base searchPath program : String) : Except FileError Launch :=
  if program.isEmpty then .error .missing
  else if program.toList.contains '/' then launch files base program
  else do
    let launch ← firstLaunch files base false
      ((searchDirectories searchPath).map fun directory => Path.join directory program)
    pure (if launch.arguments.isEmpty then { launch with name := program } else launch)

end BuildMatrix.Shell
