import BuildMatrix.Json.Value
import BuildMatrix.Workflow.Config

/-!
# Configurations as texts

A configuration is read from YAML, where members of other names are passed over, and written as
JSON.
-/

namespace BuildMatrix

open Yaml (Reader Value)

/-- A text that is written so that it stands for a text. -/
def Triggers.readEvent (node : Yaml.Node) : Reader String := do
  match ← Reader.value 0 node with
  | .string s => pure s
  | _ => Reader.refuse

def Triggers.read (node : Yaml.Node) : Reader Triggers := do
  match ← Reader.resolve node with
  | .sequence tag items =>
    if (Reader.ownTag? tag).isSome then Reader.refuse else pure (.many (← items.mapM readEvent))
  | node => pure (.one (← readEvent node))

def readTexts (node : Yaml.Node) : Reader (List String) := do (← Reader.items node).mapM Reader.text

def CacheConfig.read (node : Yaml.Node) : Reader CacheConfig := do
  let default : CacheConfig := {}
  let m ← Reader.members ["manifest", "path", "namespace", "restore_keys"] node
  pure ⟨← Reader.member m "manifest" default.manifest Reader.text,
    ← Reader.member m "path" default.path Reader.text,
    ← Reader.member m "namespace" default.literal Reader.text,
    ← Reader.member m "restore_keys" default.restoreKeys readTexts⟩

/-- Reads variables; of two values for one name the last counts. -/
def Environment.read (node : Yaml.Node) : Reader Environment := do
  let entries ← (← Reader.pairs node).mapM fun (name, value) => do
    let name ← Reader.text name
    pure (name, ← Reader.text value)
  pure (.ofList entries)

def EnvironmentConfig.read (node : Yaml.Node) : Reader EnvironmentConfig := do
  let default : EnvironmentConfig := {}
  let m ← Reader.members ["skip_native_build", "ci", "extra"] node
  pure ⟨← Reader.member m "skip_native_build" default.skipNativeBuild Reader.bool,
    ← Reader.member m "ci" default.unattended Reader.bool,
    ← Reader.member m "extra" default.extra Environment.read⟩

def TestConfig.read (node : Yaml.Node) : Reader TestConfig := do
  let default : TestConfig := {}
  let m ← Reader.members ["runner", "runner_version", "exclude_tags"] node
  pure ⟨← Reader.member m "runner" default.runner Reader.text,
    ← Reader.member m "runner_version" default.runnerVersion Reader.text,
    ← Reader.member m "exclude_tags" default.excludedTags readTexts⟩

/-- Reads a command, whose members have no default. -/
def CommandConfig.read (node : Yaml.Node) : Reader CommandConfig := do
  match ← Reader.members ["name", "run"] node with
  | [("name", name), ("run", run)] | [("run", run), ("name", name)] =>
    pure ⟨← Reader.text name, ← readTexts run⟩
  | _ => Reader.refuse

def readMatrix (node : Yaml.Node) : Reader (List (Value × Value)) := do
  (← Reader.pairs node).foldlM (fun done (k, v) => do
    let key ← Reader.value (Yaml.nestingLimit - 2) k
    Reader.addPair done key (← Reader.value (Yaml.nestingLimit - 2) v)) []

namespace WorkflowConfig

def memberNames : List String :=
  ["name", "on", "version_axis", "matrix", "cache", "env", "test", "steps", "step_timeout_secs"]

def read (node : Yaml.Node) : Reader WorkflowConfig := do
  let default : WorkflowConfig := {}
  let m ← Reader.members memberNames node
  pure {
    name := ← Reader.member m "name" default.name Reader.text
    triggers := ← Reader.member m "on" default.triggers Triggers.read
    versionAxis := ← Reader.member m "version_axis" default.versionAxis Reader.text
    matrix := ← Reader.member m "matrix" default.matrix readMatrix
    cache := ← Reader.member m "cache" default.cache CacheConfig.read
    environment := ← Reader.member m "env" default.environment EnvironmentConfig.read
    test := ← Reader.member m "test" default.test TestConfig.read
    commands := ← Reader.member m "steps" default.commands fun node => do
      (← Reader.items node).mapM CommandConfig.read
    stepTimeoutSeconds :=
      ← Reader.member m "step_timeout_secs" default.stepTimeoutSeconds Reader.uint64 }

/-- The configuration that a text describes; a text without a document describes the default. -/
def ofYaml? (text : String) : Option WorkflowConfig := do
  let document ← Yaml.Document.read? text
  if document.events.isEmpty then some {}
  else (read (← document.root?)).run? document

end WorkflowConfig

mutual

/-- A value as JSON; only texts can be names. -/
def valueJson? : Value → Option Json
  | .null => some .null
  | .bool b => some (.bool b)
  | .integer n => some (.integer n)
  | .float x => some (.float x)
  | .string s => some (.string s)
  | .sequence items => (itemsJson? items).map .array
  | .mapping pairs => (pairsJson? pairs).map .object
  | .tagged tag value => (valueJson? value).map fun j => .object [("!" ++ tag, j)]

def itemsJson? : List Value → Option (List Json)
  | [] => some []
  | item :: items => do
    let j ← valueJson? item
    some (j :: (← itemsJson? items))

def pairsJson? : List (Value × Value) → Option (List (String × Json))
  | [] => some []
  | (.string name, value) :: pairs => do
    let j ← valueJson? value
    some ((name, j) :: (← pairsJson? pairs))
  | _ => none

end

namespace WorkflowConfig

def triggersJson : Triggers → Json
  | .one event => .string event
  | .many events => Json.ofStrings events

def commandJson (command : CommandConfig) : Json :=
  .object [("name", .string command.name), ("run", Json.ofStrings command.run)]

/-- A configuration as JSON, unless a name in its matrix is no plain text. -/
def toJson? (config : WorkflowConfig) : Option Json := do
  let matrix ← pairsJson? config.matrix
  some (.object [
    ("name", .string config.name),
    ("on", triggersJson config.triggers),
    ("version_axis", .string config.versionAxis),
    ("matrix", .object matrix),
    ("cache", .object [
      ("manifest", .string config.cache.manifest),
      ("path", .string config.cache.path),
      ("namespace", .string config.cache.literal),
      ("restore_keys", Json.ofStrings config.cache.restoreKeys)]),
    ("env", .object [
      ("skip_native_build", .bool config.environment.skipNativeBuild),
      ("ci", .bool config.environment.unattended),
      ("extra", .object (config.environment.extra.entries.map fun e => (e.1, .string e.2)))]),
    ("test", .object [
      ("runner", .string config.test.runner),
      ("runner_version", .string config.test.runnerVersion),
      ("exclude_tags", Json.ofStrings config.test.excludedTags)]),
    ("steps", .array (config.commands.map commandJson)),
    ("step_timeout_secs", .integer config.stepTimeoutSeconds.toNat)])

end WorkflowConfig

end BuildMatrix
