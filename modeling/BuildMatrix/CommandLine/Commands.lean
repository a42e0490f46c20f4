import BuildMatrix.Cache.Database
import BuildMatrix.CommandLine.Arguments
import BuildMatrix.Console.Lines
import BuildMatrix.LocalHost
import BuildMatrix.Run.Exchange
import BuildMatrix.Workflow.Loading

/-!
# Commands

What the program does when it is called: it runs a workflow, shows what a run would do, checks a
workflow, or lists the stored caches. A call changes the files and the databases of its host,
writes lines to the console and ends with an exit code; if it cannot do what it was asked for, it
reports why.
-/

namespace BuildMatrix.CommandLine

/-- What calls change. -/
structure Session where
  files : FileSystem
  databases : Databases

/-- What a call is given apart from its arguments. -/
structure Situation where
  environment : Environment
  now : Instant
  /-- The identifier of an execution that the call starts. -/
  id : Ident
deriving DecidableEq, Repr

/-- What a call leaves. -/
structure Outcome where
  exitCode : Nat
  lines : List String
  /-- The causes of a failure, the outermost first. -/
  error : Option (List String)
deriving DecidableEq, Repr

namespace Outcome

/-- A call that did what it was asked for. -/
def done (lines : List String) : Outcome := ⟨0, lines, none⟩

def failed (lines : List String) (causes : List String) : Outcome := ⟨1, lines, some causes⟩

/-- The standard output. -/
def stdout (outcome : Outcome) : String := String.join (outcome.lines.map fun line => line ++ "\n")

end Outcome

/-- A cause with its number, if there are several; further lines are set below the first one. -/
def causeText (number : Option Nat) (cause : String) : String :=
  let (lead, indent) := match number with
    | some n => (Console.padLeft 5 (toString n) ++ ": ", "       ")
    | none => ("    ", "    ")
  lead ++ Text.joinWith ("\n" ++ indent) ((Text.splitAt '\n' cause.toList).map String.ofList)

/-- The report of a failure. -/
def errorText : List String → String
  | [] => ""
  | [message] => s!"Error: {message}\n"
  | [message, cause] => s!"Error: {message}\n\nCaused by:\n" ++ causeText none cause ++ "\n"
  | message :: causes =>
    let lines := causes.zipIdx.map fun (cause, n) => causeText (some n) cause ++ "\n"
    s!"Error: {message}\n\nCaused by:\n" ++ String.join lines

namespace Situation

def home (s : Situation) : String := (s.environment.get? "HOME").getD ""

/-- Where workspaces are made. -/
def temporary (s : Situation) : String := (s.environment.get? "TMPDIR").getD "/tmp"

/-- Colors are shown on demand only; pictographs wherever texts are in UTF-8. -/
def display (s : Situation) : Console.Display :=
  { colors := (s.environment.get? "CLICOLOR_FORCE").any fun value => value != "0"
    pictographs := (s.environment.get? "LANG").any fun language =>
      Text.endsWith "UTF-8".toList (language.toList.map Char.toUpper) }

def dataDirectory (s : Situation) : String :=
  match s.environment.get? "XDG_DATA_HOME" with
  | some path => if Path.isAbsolute path then path else Path.join s.home ".local/share"
  | none => Path.join s.home ".local/share"

def storeDirectory (s : Situation) : String := Path.join s.dataDirectory "ci-matrix"

end Situation

structure OpenStore where
  store : CacheStore
  /-- The position of its table, unless it is kept in memory only. -/
  position : Option Nat

def openStore (situation : Situation) (inMemory : Bool) (session : Session) :
    Session × Except (List String) OpenStore :=
  if inMemory then (session, .ok ⟨.inMemory, none⟩)
  else
    let directory := situation.storeDirectory
    match session.files.makeDirectories directory with
    | (files, .error e) =>
      ({ session with files }, .error [s!"Failed to create {directory}", e.message])
    | (files, .ok ()) =>
      match session.databases.openFile files (Path.join directory "cache.db") with
      | .error e => ({ session with files }, .error e.chain)
      | .ok (databases, files, position) =>
        (⟨files, databases⟩, .ok ⟨.onTable (databases.table position), some position⟩)

def keepStore (session : Session) (position : Option Nat) (store : CacheStore) : Session :=
  match position, store.table? with
  | some position, some table =>
    { session with databases := session.databases.update position table }
  | _, _ => session

def loadWorkflow (situation : Situation) (files : FileSystem) (file : Option String) :
    Except (List String) Workflow := do
  let config ← (WorkflowConfig.load files file).mapError LoadError.chain
  (config.toWorkflow situation.home).mapError ConfigError.chain

def exitCodeFor : PipelineStatus → Nat
  | .completed => 0
  | .failed => 1
  | .cancelled => 130

/-- The number of lines that are shown of the output of a step. -/
def shownLines : Nat := 20

/-- The lines about the last step of a run that did not complete. -/
def lastOutput (d : Console.Display) (run : Run) : List String :=
  match run.results.getLast? with
  | none => []
  | some last =>
    if last.output.isEmpty then []
    else
      ["\n" ++ d.icon .warning ++ " Output of " ++ d.paint [.bold] last.step ++ " ["
        ++ d.paint [.cyan] run.plan.label ++ "]:\n" ++ d.outputTail last.output shownLines]

def closingLine (d : Console.Display) (report : Report) : String :=
  let name := d.paint [.bold] report.workflow
  match report.status with
  | .completed =>
    "\n" ++ d.icon .check ++ " " ++ name ++ " completed " ++ d.paint [.green] "successfully"
  | .cancelled => "\n" ++ d.icon .warning ++ " " ++ name ++ " " ++ d.paint [.yellow] "cancelled"
  | .failed => "\n" ++ d.icon .cross ++ " " ++ name ++ " " ++ d.paint [.red] "failed"

def reportLines (d : Console.Display) (report : Report) : List String :=
  Console.separator :: report.runs.map (fun run => "  " ++ d.runSummary run)
    ++ report.failedRuns.flatMap (lastOutput d) ++ [closingLine d report]

def runWorkflow (host : Host) (situation : Situation) (session : Session) (file : Option String)
    (workdir event : String) (noCacheStore json : Bool) : Session × Outcome :=
  let d := situation.display
  match loadWorkflow situation session.files file with
  | .error causes => (session, .failed [] causes)
  | .ok workflow =>
    match session.files.canonical workdir with
    | .error e =>
      (session, .failed [] [s!"Working directory {workdir} not found", e.message])
    | .ok directory =>
      let loaded :=
        if json then []
        else [d.icon .info ++ " Loaded workflow: " ++ d.paint [.bold] workflow.name]
      match openStore situation noCacheStore session with
      | (session, .error causes) => (session, .failed loaded causes)
      | (session, .ok opened) =>
        let job : Job := ⟨workflow, directory, situation.temporary⟩
        let scene : Scene := ⟨session.files, false, situation.now⟩
        let ended := (Execution.start job event situation.id ⟨scene, opened.store⟩).play host
        let session := keepStore { session with files := ended.shared.scene.files }
          opened.position ended.shared.store
        match ended.report? with
        | none => (session, .failed loaded [])
        | some report =>
          let lines := if json then [report.toJson.render] else reportLines d report
          (session, ⟨exitCodeFor report.status, loaded ++ lines, none⟩)

def validate (situation : Situation) (files : FileSystem) (file : String) (json : Bool) : Outcome :=
  let d := situation.display
  let checking := [d.icon .info ++ " Validating workflow..."]
  match WorkflowConfig.load files (some file) with
  | .error e =>
    ⟨1, checking ++ [d.icon .cross ++ " Validation failed:",
      "  " ++ d.paint [.red] (Text.joinWith ": " e.chain)], none⟩
  | .ok config =>
    match config.toWorkflow situation.home with
    | .error e => .failed checking e.chain
    | .ok workflow =>
      let lines := checking ++ [
        d.icon .check ++ " Workflow configuration is valid!",
        "  Name: " ++ d.paint [.bold] config.name,
        "  Triggers: " ++ d.paint [.cyan] (Text.joinWith ", " config.triggers.events),
        "  Runs: " ++ d.paint [.cyan] (toString workflow.plans.length),
        "  Extra steps: " ++ d.paint [.cyan] (toString config.commands.length)]
      if !json then .done lines
      else match config.toJson? with
        | some json => .done (lines ++ ["\n" ++ json.render])
        | none => .failed lines ["key must be a string"]

/-- The line about the cache key of a package root. -/
def cacheKeyLine (d : Console.Display) (files : FileSystem) (policy : CachePolicy)
    (workdir : String) : String :=
  match policy.keyFor files workdir with
  | .ok key =>
    d.icon .package ++ " Cache key: " ++ d.paint [.bold] key.render ++ " (restore: "
      ++ Text.joinWith ", " (policy.stemsFor key) ++ ")"
  | .error e => d.icon .warning ++ " Cache key unavailable: " ++ Text.joinWith ": " e.chain

/-- The context in which the steps of a plan are shown. -/
def previewContext (workflow : Workflow) (workdir : String) (plan : Plan) : RunContext :=
  let version := (workflow.versionFor? plan).getD ""
  ⟨plan, ⟨version, "python" ++ version⟩, workdir, .empty⟩

def stepLine (d : Console.Display) (files : FileSystem) (context : RunContext) (step : Step) :
    String :=
  let note := match step.skipReason? files context with
    | some reason => " " ++ d.paint [.dim] ("(skip: " ++ Console.skipText reason ++ ")")
    | none => ""
  "  " ++ Console.padRight 22 step.name ++ " " ++ (step.command context).display ++ note

def planLines (d : Console.Display) (files : FileSystem) (workflow : Workflow) (workdir : String)
    (plan : Plan) : List String :=
  ("\n" ++ d.paint [.cyan, .bold] plan.label)
    :: workflow.steps.map (stepLine d files (previewContext workflow workdir plan))

def showPlan (situation : Situation) (files : FileSystem) (file : Option String)
    (workdir : String) : Outcome :=
  let d := situation.display
  match loadWorkflow situation files file with
  | .error causes => .failed [] causes
  | .ok workflow =>
    let plans := workflow.plans
    .done ((d.icon .launch ++ " " ++ d.paint [.bold] workflow.name ++ s!": {plans.length} run(s)")
      :: cacheKeyLine d files workflow.cache workdir
      :: plans.flatMap (planLines d files workflow workdir))

def listCache (situation : Situation) (session : Session) (json : Bool) : Session × Outcome :=
  let d := situation.display
  match openStore situation false session with
  | (session, .error causes) => (session, .failed [] causes)
  | (session, .ok opened) =>
    let entries := opened.store.list
    let lines :=
      if json then [(Json.array (entries.map CacheSummary.toJson)).render]
      else if entries.isEmpty then [d.icon .info ++ " No cache entries stored"]
      else (d.icon .info ++ " Cache entries (newest first):")
        :: entries.map fun entry => "  " ++ d.cacheEntry entry
    (session, .done lines)

/-- Carries out what a command line asks for, on a host. -/
def perform (host : Host) (situation : Situation) (session : Session) : Action → Session × Outcome
  | .run file workdir event noCacheStore json =>
    runWorkflow host situation session file workdir event noCacheStore json
  | .validate file json => (session, validate situation session.files file json)
  | .plan file workdir => (session, showPlan situation session.files file workdir)
  | .cacheList json => listCache situation session json

def versionLine : String := "ci-matrix 0.1.0"

/-- What comes of a command line that asks for no command, or is at fault. -/
def misuseOutcome : Misuse → Outcome
  | .help => .done []
  | .version => .done [versionLine]
  | _ => ⟨2, [], none⟩

/-- Calls the program with arguments, on a host. -/
def call (host : Host) (situation : Situation) (session : Session) (arguments : List String) :
    Session × Outcome :=
  match parse arguments with
  | .ok invocation => perform host situation session invocation.action
  | .error misuse => (session, misuseOutcome misuse)

/-- Calls the program on a host that runs commands as programs of its own. -/
def callLocally (situation : Situation) (session : Session) (arguments : List String) :
    Session × Outcome :=
  let setting : HostSetting :=
    ⟨situation.environment, Path.ofLocation session.files.workingDirectory⟩
  call (LocalHost.host setting .usual) situation session arguments

end BuildMatrix.CommandLine
