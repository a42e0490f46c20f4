import BuildMatrix.Execution.Schedule
import BuildMatrix.FileSystem.Layout

/-!
# Scripted hosts

A workflow can be rehearsed on a host that carries out nothing. A script tells which interpreters
it has, and what comes of the commands that are handed over to it: files that are made, a
cancellation, and an output or a failure.
-/

namespace BuildMatrix

/-- What becomes of the signal to cancel when a command is handed over. -/
inductive ScriptedCancel where
  | never
  /-- It is given, and the command goes on. -/
  | after
  /-- It is given, and the command never ends. -/
  | hang
deriving DecidableEq, Repr

/-- What comes of the commands that a pattern matches. -/
structure Rule where
  /-- A part of the command as it is shown. -/
  pattern : String
  /-- Made in the working directory of the command. -/
  files : Layout
  /-- Made in the cache directory of the plan. -/
  cacheFiles : Layout
  panic : Option String
  spawnError : Option String
  timesOut : Bool
  cancel : ScriptedCancel
  output : Output
deriving Repr

namespace Rule

/-- The rule for commands that none matches: they succeed and write nothing. -/
def usual : Rule := ⟨"", [], [], none, none, false, .never, ⟨some 0, "", ""⟩⟩

def covers (rule : Rule) (command : Command) : Bool :=
  rule.pattern.isEmpty || (Text.cut? rule.pattern.toList command.display.toList).isSome

def make (rule : Rule) (command : Command) (files : FileSystem) : FileSystem :=
  let files := Layout.make command.directory files rule.files
  match command.environment.get? Task.cacheVariable with
  | some directory => Layout.make directory files rule.cacheFiles
  | none => files

/-- The reply to a command. A panic comes before a failure to spawn, and that before a timeout. -/
def reply (rule : Rule) (command : Command) : Reply :=
  let made : Reply := { Reply.none with files := rule.make command }
  match rule.panic, rule.spawnError with
  | some message, _ => { made with output := .panicked message }
  | none, some message => { made with output := .ready (.error (.spawn command.display message)) }
  | none, none =>
    if rule.timesOut then
      { made with output := .ready (.error (.timeout command.display command.timeoutSeconds)) }
    else match rule.cancel with
      | .hang => { made with cancels := true }
      | .after => { made with cancels := true, output := .ready (.ok rule.output) }
      | .never => { made with output := .ready (.ok rule.output) }

end Rule

/-- What comes of a request for an interpreter. -/
inductive ScriptedProvision where
  | found
  | missing
  | timesOut
  | panics
  /-- The cancellation is requested, and the interpreter is found. -/
  | cancels
  /-- The cancellation is requested, and there is never an answer. -/
  | hangs
deriving DecidableEq, Repr

namespace ScriptedProvision

def interpreter (version : String) : String := s!"/mock/python{version}/bin/python"

def reply (version : String) : ScriptedProvision → Reply
  | found => { Reply.none with toolchain := .ready (.ok ⟨version, interpreter version⟩) }
  | missing =>
    { Reply.none with
      toolchain := .ready (.error (.notFound version ["python" ++ version, "python3"])) }
  | timesOut => { Reply.none with toolchain := .ready (.error (.timeout version 10)) }
  | panics => { Reply.none with toolchain := .panicked "provisioner lost" }
  | cancels =>
    { Reply.none with
      cancels := true
      toolchain := .ready (.ok ⟨version, interpreter version⟩) }
  | hangs => { Reply.none with cancels := true }

end ScriptedProvision

structure Script where
  /-- What comes of requests, by version; interpreters of other versions are found. -/
  provisions : List (String × ScriptedProvision)
  /-- The first rule for a command counts. -/
  rules : List Rule
deriving Repr

namespace Script

def ruleFor (script : Script) (command : Command) : Rule :=
  (script.rules.find? fun rule => rule.covers command).getD .usual

def provisionOf (script : Script) (version : String) : ScriptedProvision :=
  ((script.provisions.find? fun p => p.1 == version).map (·.2)).getD .found

def host (script : Script) : Host where
  provision _ version := (script.provisionOf version).reply version
  command _ command := (script.ruleFor command).reply command

end Script

end BuildMatrix
