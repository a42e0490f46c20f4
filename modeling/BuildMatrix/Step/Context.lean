import BuildMatrix.FileSystem.Operations
import BuildMatrix.Matrix.Plan
import BuildMatrix.Step.Basic
import BuildMatrix.Step.Failure

/-!
# Steps in a context

The command of a step depends on the run that it belongs to: the interpreter, the directory and the
environment of the run. So does whether the step is skipped.
-/

namespace BuildMatrix

structure RunContext where
  plan : Plan
  toolchain : Toolchain
  directory : String
  environment : Environment
deriving DecidableEq, Repr

namespace Step

def interpreterName : String := "python"

/-- Why the step is skipped in a context, if it is. -/
def skipReason? (step : Step) (files : FileSystem) (context : RunContext) : Option SkipReason :=
  match step.action with
  | .package (.installManifest manifest) =>
    if files.isFile (Path.join context.directory manifest) then none
    else some (.manifestMissing manifest)
  | _ => none

def installArguments (rest : List String) : List String := ["-m", "pip", "install"] ++ rest

def invocation (step : Step) (interpreter : String) : String × List String :=
  match step.action with
  | .package .upgradeSelf => (interpreter, installArguments ["--upgrade", "pip"])
  | .package (.installManifest manifest) => (interpreter, installArguments ["-r", manifest])
  | .package (.installPinned package version) =>
    (interpreter, installArguments [package ++ "==" ++ version])
  | .package (.installLocal path) => (interpreter, installArguments [path])
  | .test runner filter =>
    (interpreter, ["-m", runner] ++ match filter.expression? with
      | some expression => ["-m", expression]
      | none => [])
  | .shell program arguments =>
    (if program = interpreterName then interpreter else program, arguments)

/-- The command that carries out the step in a context. -/
def command (step : Step) (context : RunContext) : Command :=
  let (program, arguments) := step.invocation context.toolchain.interpreter
  { program, arguments
    environment := context.environment
    directory := context.directory
    timeoutSeconds := step.timeoutSeconds }

/-- The failure of a step whose command did not succeed. -/
def failure (step : Step) (command : Command) (output : Output) : StepFailure :=
  match step.action with
  | .package (.installPinned package version) =>
    .versionPinMismatch package version output.exitCode
  | .package (.installLocal _) => .installVerificationFailure output.exitCode
  | .test .. => .testExecutionFailure output.exitCode
  | _ => .commandFailed command.display output.exitCode

end Step

end BuildMatrix
