import BuildMatrix.Shell.Field
import BuildMatrix.Shell.Program
import BuildMatrix.Shell.Statement

/-!
# The state of a shell

A shell has variables, functions and a directory of its own. It shares the files and the streams
with the programs that it starts.
-/

namespace BuildMatrix.Shell

/-- Where a stream leads. -/
inductive Sink where
  /-- A collected output, by position. -/
  | buffer (position : Nat)
  | file (path : String)
  | nowhere
deriving DecidableEq, Repr

/-- What all programs of a host share. -/
structure Machine where
  files : FileSystem
  input : List Char
  /-- The collected outputs, each as the pieces that were written, the last one first. -/
  buffers : List (List (List Char))
  /-- The signals that were sent to the program that started the first one. -/
  signals : List Nat
  /-- The time that programs have slept. -/
  milliseconds : Nat

structure State where
  machine : Machine
  /-- The name under which the script was started. -/
  name : String
  arguments : List String
  bindings : List (String × String)
  exported : List String
  functions : List (String × Statement)
  directory : String
  line : Nat
  status : Nat
  /-- Where the streams lead. -/
  sinks : List (Nat × Sink)
  /-- The number of programs that started each other up to this one. -/
  depth : Nat
  /-- Whether the script ends at the first command that fails. -/
  stopsOnFailure : Bool
  /-- Whether a failure is looked at, so that it does not end the script. -/
  isGuarded : Bool
  /-- Whether a parameter without a value is an error. -/
  requiresValues : Bool
  /-- Whether commands are shown before they are carried out. -/
  shows : Bool
  /-- The variables that must not be changed. -/
  constants : List String
  loops : Nat
  /-- In a function, the values that its local variables had before. -/
  saved : Option (List (String × Option String))
  /-- What is carried out on signals; the number zero stands for the end of the script. -/
  traps : List (Nat × String)
  /-- The signals that have come and are not answered yet. -/
  pending : List Nat

/-- Why a script does not go on with its next statement. -/
inductive Halt where
  | exit
  | leaveFunction
  | leaveLoops (count : Nat)
  | nextRound (count : Nat)
  | killed (signal : Nat)
  | endless
deriving DecidableEq, Repr

/-- A part of a script that is carried out. -/
abbrev Run := ExceptT Halt (StateM State)

inductive Ending where
  | exited (code : Nat)
  | killed (signal : Nat)
  | endless
deriving DecidableEq, Repr

/-- The status that a shell gives to a program that it started. -/
def Ending.status : Ending → Nat
  | exited code => code
  | killed signal => 128 + signal
  | endless => 255

/-- How a script ends that was halted, or not. -/
def Ending.ofHalt (status : Nat) : Except Halt Unit → Ending
  | .error (.killed signal) => killed signal
  | .error .endless => endless
  | _ => exited status

namespace State

def valueOf? (s : State) (name : String) : Option String :=
  (s.bindings.find? fun v => v.1 == name).map (·.2)

def assign (s : State) (name value : String) : State :=
  { s with bindings := (name, value) :: s.bindings.filter fun v => v.1 != name }

/-- Gives variables back the values that they had before. -/
def restore (s : State) (saved : List (String × Option String)) : State :=
  saved.foldl (fun s (name, value) =>
    match value with
    | some value => s.assign name value
    | none => { s with bindings := s.bindings.filter fun v => v.1 != name }) s

def trap? (s : State) (signal : Nat) : Option String :=
  (s.traps.find? fun t => t.1 == signal).map (·.2)

/-- Takes the value of a variable away. -/
def unassign (s : State) (name : String) : State :=
  { s with
    bindings := s.bindings.filter fun v => v.1 != name
    exported := s.exported.filter (· != name) }

/-- Hands a variable on to programs. -/
def share (s : State) (name : String) : State :=
  if s.exported.contains name then s else { s with exported := s.exported ++ [name] }

/-- The variables that are handed on to programs. -/
def environment (s : State) : List (String × String) :=
  s.exported.filterMap fun name => (s.valueOf? name).map (name, ·)

def process (s : State) : Nat := 4000 + s.depth

def parentNumber (s : State) : Nat := 3999 + s.depth

/-- The characters at which loose text is cut. -/
def separators (s : State) : List Char := ((s.valueOf? "IFS").getD " \t\n").toList

def parameter? (s : State) (name : String) : Option String :=
  match name with
  | "#" => some (toString s.arguments.length)
  | "?" => some (toString s.status)
  | "$" => some (toString s.process)
  | "-" | "!" => some ""
  | "0" => some s.name
  | "@" | "*" =>
    let separator := match s.separators with
      | [] => ""
      | c :: _ => String.singleton c
    some (Text.joinWith separator s.arguments)
  | name =>
    match name.toNat? with
    | some n => s.arguments[n - 1]?
    | none => s.valueOf? name

def pathOf (s : State) (path : String) : String := Path.join s.directory (toText path)

def sink (s : State) (stream : Nat) : Sink :=
  ((s.sinks.find? fun p => p.1 == stream).map (·.2)).getD .nowhere

/-- Lets a stream lead elsewhere. -/
def setSink (s : State) (stream : Nat) (sink : Sink) : State :=
  { s with sinks := (stream, sink) :: s.sinks.filter fun p => p.1 != stream }

def writeTo (s : State) (sink : Sink) (text : List Char) : State :=
  let m := s.machine
  match sink with
  | .nowhere => s
  | .buffer position =>
    { s with machine := { m with buffers := m.buffers.modify position (text :: ·) } }
  | .file path =>
    let old := (m.files.read path).toOption.getD []
    match m.files.write path (old ++ bytesOfChars text) with
    | .ok files => { s with machine := { m with files } }
    | .error _ => s

def write (s : State) (stream : Nat) (text : List Char) : State := s.writeTo (s.sink stream) text

/-- Writes a message to the stream of errors, with the place in the script. -/
def complain (s : State) (message : String) : State :=
  s.write 2 s!"{s.name}: {s.line}: {message}\n".toList

end State

def collected (machine : Machine) (position : Nat) : List Char :=
  (machine.buffers.getD position []).reverse.flatten

def put (text : List Char) : Run Unit := modify fun s => s.write 1 text

/-- Writes a message to the stream of errors and sets the status. -/
def fail (status : Nat) (message : String) : Run Unit :=
  modify fun s => { s.complain message with status }

/-- Writes a message of a tool and sets the status. -/
def failAs (status : Nat) (message : String) : Run Unit :=
  modify fun s => { s.write 2 (message ++ "\n").toList with status }

def setStatus (status : Nat) : Run Unit := modify fun s => { s with status }

/-- Sets the status to zero if a condition holds and to one if it does not. -/
def setTruth (holds : Bool) : Run Unit := setStatus (if holds then 0 else 1)

end BuildMatrix.Shell
