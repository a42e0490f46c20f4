import BuildMatrix.Environment
import BuildMatrix.Text.Blank
import BuildMatrix.Text.Split

/-!
# Commands

A step is carried out by one command: a program with arguments, an environment, a working directory
and a limit on its time. A command that ends leaves an exit code, unless a signal ended it, and the
texts that it wrote.
-/

namespace BuildMatrix

/-- A command with everything that it needs to be run. -/
structure Command where
  program : String
  arguments : List String
  environment : Environment
  directory : String
  timeoutSeconds : UInt64
deriving DecidableEq, Repr

namespace Command

/-- An argument as it is shown: between quotes if it has a space. -/
def shownArgument (argument : String) : String :=
  if argument.toList.contains ' ' then "\"" ++ argument ++ "\"" else argument

def display (command : Command) : String :=
  Text.joinWith " " (command.program :: command.arguments.map shownArgument)

/-- The text after the last occurrence of `flag`, given the text after an earlier one. -/
def lastAfter? (flag : String) (earlier : Option String) : List String → Option String
  | [] => earlier
  | argument :: rest => lastAfter? flag (if argument = flag then rest.head? else earlier) rest

/-- The argument after the last one that is equal to `flag`. -/
def argumentAfter? (command : Command) (flag : String) : Option String :=
  lastAfter? flag none command.arguments

end Command

structure Output where
  /-- None if a signal ended the command. -/
  exitCode : Option Int32
  stdout : String
  stderr : String
deriving DecidableEq, Repr

namespace Output

def succeeded (output : Output) : Bool := output.exitCode == some 0

/-- Both texts, the first without the blank characters at its end if the second follows. -/
def combined (output : Output) : String :=
  if output.stderr.isEmpty then output.stdout
  else if output.stdout.isEmpty then output.stderr
  else String.ofList (Text.trimEnd output.stdout.toList) ++ "\n" ++ output.stderr

end Output

inductive RunnerError where
  | spawn (command message : String)
  | timeout (command : String) (seconds : UInt64)
deriving DecidableEq, Repr

/-- The text shown to the user. -/
def RunnerError.message : RunnerError → String
  | .spawn command message => s!"failed to spawn `{command}`: {message}"
  | .timeout command seconds => s!"`{command}` timed out after {seconds} seconds"

end BuildMatrix
