import BuildMatrix.Json.Record
import BuildMatrix.Matrix.Plan
import BuildMatrix.Step.Basic
import BuildMatrix.Step.Failure

/-!
# Steps and commands in JSON

How steps, commands, outputs and failures are written as JSON values and read from them.
-/

namespace BuildMatrix

open Json

namespace Plan

def toJson (plan : Plan) : Json :=
  object [("axis_values", array (plan.assignments.map ofTextPair))]

def ofJson? (j : Json) : Option Plan := do
  match ← fields? ["axis_values"] j with
  | [values] => pure ⟨← required? (list? textPair?) values⟩
  | _ => none

end Plan

namespace Phase

def toJson (phase : Phase) : Json := string phase.name

def ofJson? (j : Json) : Option Phase := do
  let (name, payload) ← variant? j
  match name with
  | "install-dependencies" => unit? installDependencies payload
  | "run-tests" => unit? runTests payload
  | "verify-install" => unit? verifyInstall payload
  | _ => none

end Phase

namespace TestFilter

def toJson (filter : TestFilter) : Json := object [("exclude_tags", ofStrings filter.excluded)]

/-- Reads a filter; the tags are not checked. -/
def ofJson? (j : Json) : Option TestFilter := do
  match ← fields? ["exclude_tags"] j with
  | [tags] => pure ⟨← required? (list? text?) tags⟩
  | _ => none

end TestFilter

namespace PackageAction

def toJson : PackageAction → Json
  | upgradeSelf => string "UpgradeSelf"
  | installManifest manifest =>
    ofVariant "InstallManifest" (object [("manifest", string manifest)])
  | installPinned package version =>
    ofVariant "InstallPinned" (object [("package", string package), ("version", string version)])
  | installLocal path => ofVariant "InstallLocal" (object [("path", string path)])

def ofJson? (j : Json) : Option PackageAction := do
  let (name, payload) ← variant? j
  match name with
  | "UpgradeSelf" => unit? upgradeSelf payload
  | "InstallManifest" =>
    match ← members? ["manifest"] (← payload) with
    | [manifest] => pure (installManifest (← required? text? manifest))
    | _ => none
  | "InstallPinned" =>
    match ← members? ["package", "version"] (← payload) with
    | [package, version] =>
      pure (installPinned (← required? text? package) (← required? text? version))
    | _ => none
  | "InstallLocal" =>
    match ← members? ["path"] (← payload) with
    | [path] => pure (installLocal (← required? text? path))
    | _ => none
  | _ => none

end PackageAction

namespace StepAction

def toJson : StepAction → Json
  | shell program arguments =>
    ofVariant "Shell" (object [("program", string program), ("args", ofStrings arguments)])
  | package action => ofVariant "Package" action.toJson
  | test runner filter =>
    ofVariant "Test" (object [("runner", string runner), ("filter", filter.toJson)])

def ofJson? (j : Json) : Option StepAction := do
  let (name, payload) ← variant? j
  match name with
  | "Shell" =>
    match ← fields? ["program", "args"] (← payload) with
    | [program, arguments] =>
      pure (shell (← required? text? program) (← required? (list? text?) arguments))
    | _ => none
  | "Package" => pure (package (← PackageAction.ofJson? (← payload)))
  | "Test" =>
    match ← fields? ["runner", "filter"] (← payload) with
    | [runner, filter] =>
      pure (test (← required? text? runner) (← required? TestFilter.ofJson? filter))
    | _ => none
  | _ => none

end StepAction

namespace Step

def toJson (step : Step) : Json :=
  object [("name", string step.name), ("phase", step.phase.toJson), ("action", step.action.toJson),
    ("timeout_secs", integer step.timeoutSeconds.toNat)]

def ofJson? (j : Json) : Option Step := do
  match ← fields? ["name", "phase", "action", "timeout_secs"] j with
  | [name, phase, action, timeout] =>
    pure ⟨← required? text? name, ← required? Phase.ofJson? phase,
      ← required? StepAction.ofJson? action, ← required? uint64? timeout⟩
  | _ => none

end Step

namespace Toolchain

def toJson (toolchain : Toolchain) : Json :=
  object [("version", string toolchain.version), ("interpreter", string toolchain.interpreter)]

def ofJson? (j : Json) : Option Toolchain := do
  match ← fields? ["version", "interpreter"] j with
  | [version, interpreter] =>
    pure ⟨← required? text? version, ← required? text? interpreter⟩
  | _ => none

end Toolchain

namespace Environment

def toJson (env : Environment) : Json :=
  object (env.entries.map fun (name, value) => (name, string value))

def ofJson? : Json → Option Environment
  | object members =>
    (members.mapM fun m => (text? m.2).map (m.1, ·)).map ofList
  | _ => none

end Environment

namespace Command

def toJson (command : Command) : Json :=
  object [("program", string command.program), ("args", ofStrings command.arguments),
    ("env", command.environment.toJson), ("cwd", string command.directory),
    ("timeout_secs", integer command.timeoutSeconds.toNat)]

def ofJson? (j : Json) : Option Command := do
  match ← fields? ["program", "args", "env", "cwd", "timeout_secs"] j with
  | [program, arguments, environment, directory, timeout] =>
    pure ⟨← required? text? program, ← required? (list? text?) arguments,
      ← required? Environment.ofJson? environment, ← required? text? directory,
      ← required? uint64? timeout⟩
  | _ => none

end Command

/-- An exit code, null if a signal ended the command. -/
def exitCodeJson (code : Option Int32) : Json := ofOption (fun c => integer c.toInt) code

namespace Output

def toJson (output : Output) : Json :=
  object [("exit_code", exitCodeJson output.exitCode), ("stdout", string output.stdout),
    ("stderr", string output.stderr)]

def ofJson? (j : Json) : Option Output := do
  match ← fields? ["exit_code", "stdout", "stderr"] j with
  | [code, stdout, stderr] =>
    pure ⟨← optional? int32? code, ← required? text? stdout, ← required? text? stderr⟩
  | _ => none

end Output

namespace StepFailure

def toJson : StepFailure → Json
  | provision version message =>
    object [("kind", string "provision"), ("version", string version), ("message", string message)]
  | commandFailed command code =>
    object [("kind", string "command_failed"), ("command", string command),
      ("exit_code", exitCodeJson code)]
  | versionPinMismatch package version code =>
    object [("kind", string "version_pin_mismatch"), ("package", string package),
      ("version", string version), ("exit_code", exitCodeJson code)]
  | testExecutionFailure code =>
    object [("kind", string "test_execution_failure"), ("exit_code", exitCodeJson code)]
  | installVerificationFailure code =>
    object [("kind", string "install_verification_failure"), ("exit_code", exitCodeJson code)]
  | workspace message => object [("kind", string "workspace"), ("message", string message)]
  | spawn command message =>
    object [("kind", string "spawn"), ("command", string command), ("message", string message)]
  | timeout command seconds =>
    object [("kind", string "timeout"), ("command", string command),
      ("secs", integer seconds.toNat)]
  | aborted message => object [("kind", string "aborted"), ("message", string message)]

def ofJson? (j : Json) : Option StepFailure := do
  let (kind, rest) ← tagged? "kind" j
  match kind with
  | "provision" =>
    match ← fields? ["version", "message"] rest with
    | [version, message] =>
      pure (provision (← required? text? version) (← required? text? message))
    | _ => none
  | "command_failed" =>
    match ← fields? ["command", "exit_code"] rest with
    | [command, code] =>
      pure (commandFailed (← required? text? command) (← optional? int32? code))
    | _ => none
  | "version_pin_mismatch" =>
    match ← fields? ["package", "version", "exit_code"] rest with
    | [package, version, code] =>
      pure (versionPinMismatch (← required? text? package) (← required? text? version)
        (← optional? int32? code))
    | _ => none
  | "test_execution_failure" =>
    match ← fields? ["exit_code"] rest with
    | [code] => pure (testExecutionFailure (← optional? int32? code))
    | _ => none
  | "install_verification_failure" =>
    match ← fields? ["exit_code"] rest with
    | [code] => pure (installVerificationFailure (← optional? int32? code))
    | _ => none
  | "workspace" =>
    match ← fields? ["message"] rest with
    | [message] => pure (workspace (← required? text? message))
    | _ => none
  | "spawn" =>
    match ← fields? ["command", "message"] rest with
    | [command, message] =>
      pure (spawn (← required? text? command) (← required? text? message))
    | _ => none
  | "timeout" =>
    match ← fields? ["command", "secs"] rest with
    | [command, seconds] =>
      pure (timeout (← required? text? command) (← required? uint64? seconds))
    | _ => none
  | "aborted" =>
    match ← fields? ["message"] rest with
    | [message] => pure (aborted (← required? text? message))
    | _ => none
  | _ => none

end StepFailure

namespace SkipReason

def toJson : SkipReason → Json
  | manifestMissing path =>
    object [("reason", string "manifest_missing"), ("path", string path)]

def ofJson? (j : Json) : Option SkipReason := do
  let (reason, rest) ← tagged? "reason" j
  match reason with
  | "manifest_missing" =>
    match ← fields? ["path"] rest with
    | [path] => pure (manifestMissing (← required? text? path))
    | _ => none
  | _ => none

end SkipReason

end BuildMatrix
