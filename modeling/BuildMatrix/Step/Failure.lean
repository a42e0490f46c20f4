import BuildMatrix.Step.Command

/-!
# Step failures

A failure ends the run of a plan. A missing manifest and a cache miss are no failures: the first
skips a step and the second is a cache status.
-/

namespace BuildMatrix

/-- Why a run ends before its last step. -/
inductive StepFailure where
  | provision (version message : String)
  | commandFailed (command : String) (exitCode : Option Int32)
  | versionPinMismatch (package version : String) (exitCode : Option Int32)
  | testExecutionFailure (exitCode : Option Int32)
  | installVerificationFailure (exitCode : Option Int32)
  | workspace (message : String)
  | spawn (command message : String)
  | timeout (command : String) (seconds : UInt64)
  | aborted (message : String)
deriving DecidableEq, Repr

namespace StepFailure

/-- How a command ended. -/
def exitText : Option Int32 → String
  | some code => s!"exited with code {code}"
  | none => "terminated by signal"

/-- The text shown to the user. -/
def message : StepFailure → String
  | provision version message => s!"failed to provision Python {version}: {message}"
  | commandFailed command exitCode => s!"`{command}` " ++ exitText exitCode
  | versionPinMismatch package version exitCode =>
    s!"could not install {package}=={version} (" ++ exitText exitCode ++ ")"
  | testExecutionFailure exitCode => "test suite failed (" ++ exitText exitCode ++ ")"
  | installVerificationFailure exitCode =>
    "package failed to install from its own root (" ++ exitText exitCode ++ ")"
  | workspace message => s!"failed to stage a private copy of the package root: {message}"
  | spawn command message => s!"failed to spawn `{command}`: {message}"
  | timeout command seconds => s!"`{command}` timed out after {seconds} seconds"
  | aborted message => s!"run aborted unexpectedly: {message}"

/-- A command that could not be run to its end fails its step. -/
def ofRunnerError : RunnerError → StepFailure
  | .spawn command message => spawn command message
  | .timeout command seconds => timeout command seconds

end StepFailure

end BuildMatrix
