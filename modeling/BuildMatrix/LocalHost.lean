import BuildMatrix.Execution.Schedule
import BuildMatrix.Shell.Evaluation

/-!
# The local host

Commands are run as processes of a host whose programs are its tools and the scripts in its files.
A process inherits the variables of its host and has those of its command besides. It may send
signals to the host; an interrupt cancels all runs.
-/

namespace BuildMatrix

/-- What processes inherit. -/
structure HostSetting where
  environment : Environment
  directory : String
deriving DecidableEq, Repr

/-- Why a process is not started. -/
inductive SpawnError where
  | nulInText
  | file (cause : FileError)
deriving DecidableEq, Repr

/-- The text shown to the user. -/
def SpawnError.message : SpawnError → String
  | .nulInText => "nul byte found in provided data"
  | .file cause => cause.message

/-- What a process has done when it ends, or is given up. -/
structure Finished where
  ending : Shell.Ending
  stdout : Bytes
  stderr : Bytes
  files : FileSystem
  signals : List Nat
  milliseconds : Nat

namespace LocalHost

/-- A bound on the steps of a process; one that needs more is taken not to end. -/
def stepBound : Nat := 100000

/-- Whether a text has the character that ends texts of the system. -/
def hasNul (text : String) : Bool := text.toList.contains (Char.ofNat 0)

/-- Whether something that is handed to the system has such a character. -/
def anyNul (command : Command) : Bool :=
  hasNul command.program || hasNul command.directory || command.arguments.any hasNul
    || command.environment.entries.any fun e => hasNul e.1 || hasNul e.2

def shellVariables (environment : Environment) : List (String × String) :=
  environment.entries.map fun e => (Shell.ofText e.1, Shell.ofText e.2)

/-- The directory in which a process is started. -/
def enter (files : FileSystem) (path : String) : Except SpawnError String :=
  match files.canonical path with
  | .error cause => .error (.file cause)
  | .ok directory =>
    if files.isDirectory directory then .ok directory else .error (.file .notDirectory)

/-- The shell from whose view a host starts its processes. -/
def hostState (files : FileSystem) (directory : String) : Shell.State :=
  { machine := ⟨files, [], [[], []], [], 0⟩
    name := "", arguments := [], bindings := [], exported := [], functions := []
    directory
    line := 1, status := 0
    sinks := [(1, .buffer 0), (2, .buffer 1)]
    depth := 0
    stopsOnFailure := false, isGuarded := false, requiresValues := false, shows := false
    constants := [], loops := 0, saved := none, traps := [], pending := [] }

/-- Starts a command and lets it go on to its end. -/
def start (setting : HostSetting) (files : FileSystem) (command : Command) :
    Except SpawnError Finished := do
  if anyNul command then throw .nulInText
  let environment := setting.environment.setAll command.environment.entries
  let directory ← enter files (Path.join setting.directory command.directory)
  let searchPath := (environment.get? "PATH").getD "/bin:/usr/bin"
  match Shell.locate files directory searchPath command.program with
  | .error cause => throw (.file cause)
  | .ok launch =>
    let (ending, machine) := Shell.runProgram stepBound (hostState files directory)
      (shellVariables environment) launch
      ((launch.arguments ++ command.arguments).map Shell.ofText)
    pure {
      ending
      stdout := Shell.bytesOfChars (Shell.collected machine 0)
      stderr := Shell.bytesOfChars (Shell.collected machine 1)
      files := machine.files
      signals := machine.signals
      milliseconds := machine.milliseconds }

/-- Whether a process is given up after a number of seconds. No process ends within zero seconds. -/
def isTooSlow (finished : Finished) (seconds : UInt64) : Bool :=
  seconds == 0 || finished.ending == .endless
    || decide (1000 * seconds.toNat ≤ finished.milliseconds)

/-- What a process leaves that ends in time. -/
def output (finished : Finished) : Output :=
  let exitCode := match finished.ending with
    | .exited code => some (Int32.ofNat code)
    | _ => none
  ⟨exitCode, Utf8.decodeLossy finished.stdout, Utf8.decodeLossy finished.stderr⟩

/-- What comes of a command: the files after it, the signals that it sent, and its result. -/
structure Ran where
  files : FileSystem
  signals : List Nat
  result : Except RunnerError Output

def run (setting : HostSetting) (files : FileSystem) (command : Command) : Ran :=
  match start setting files command with
  | .error e => ⟨files, [], .error (.spawn command.display e.message)⟩
  | .ok finished =>
    if isTooSlow finished command.timeoutSeconds then
      ⟨if command.timeoutSeconds == 0 then files else finished.files, finished.signals,
        .error (.timeout command.display command.timeoutSeconds)⟩
    else ⟨finished.files, finished.signals, .ok (output finished)⟩

/-- The signal that interrupts a program from its terminal. -/
def interrupt : Nat := 2

/-- Asks a candidate for its version. -/
def probe (setting : HostSetting) (seconds : UInt64) (host : FileSystem × List Nat)
    (candidate : String) : (FileSystem × List Nat) × Probe :=
  let (files, signals) := host
  let ran := run setting files ⟨candidate, ["--version"], .empty, "", seconds⟩
  let answer := match ran.result with
    | .ok output => if output.succeeded then .ofText (output.stdout ++ output.stderr)
      else Probe.unavailable
    | .error (.timeout ..) => .timedOut
    | .error (.spawn ..) => .unavailable
  ((ran.files, signals ++ ran.signals), answer)

/-- Looks for an interpreter of a version among the programs of a host. -/
def provision (setting : HostSetting) (provisioner : Provisioner) (files : FileSystem)
    (version : String) : (FileSystem × List Nat) × Except ProvisionError Toolchain :=
  provisioner.provision (probe setting provisioner.timeoutSeconds) version (files, [])

/-- A reply after signals: an interrupt cancels before there is an answer. -/
def replyAfter (files : FileSystem) (signals : List Nat) (reply : Reply) : Reply :=
  let changed := { reply with files := fun _ => files }
  if signals.contains interrupt then
    { changed with cancels := true, toolchain := .pending, output := .pending }
  else changed

/-- A host that runs commands as processes. -/
def host (setting : HostSetting) (provisioner : Provisioner) : Host where
  provision files version :=
    let ((files, signals), result) := provision setting provisioner files version
    replyAfter files signals { Reply.none with toolchain := .ready result }
  command files command :=
    let ran := run setting files command
    replyAfter ran.files ran.signals { Reply.none with output := .ready ran.result }

end LocalHost

end BuildMatrix
