import BuildMatrix.Decimal.Notation
import BuildMatrix.Matrix.Expansion
import BuildMatrix.TestFilter
import BuildMatrix.Workflow.Config

/-!
# Valid configurations

Not every configuration describes a workflow. The matrix in particular is read twice: each entry of
it is an axis, except for the one that lists exclusions.
-/

namespace BuildMatrix

open Yaml (Value)

inductive ConfigError where
  | emptyName
  | noTriggers
  | axisNameNotText
  | includeUnsupported
  | axisNotList (axis : String)
  /-- A version that is written as a number, by which it may have lost digits. -/
  | versionNotQuoted (value : Decimal.Binary64) (axis : String)
  | valueNotScalar (axis : String)
  | noVersionAxis (axis : String)
  | exclusionsNotList
  | exclusionNotMapping
  | exclusionKeyNotText
  | emptyExclusion (number : Nat)
  | unknownAxis (number : Nat) (axis : String)
  | emptyManifest
  | emptyNamespace
  | emptyRunner
  | runnerNotPinned (runner : String)
  | invalidTags (cause : TestFilterError)
  | emptyCommand (step : String)
  | reservedStep (step : String)
  | duplicateStep (step : String)
  | zeroTimeout
deriving DecidableEq, Repr

namespace ConfigError

/-- The texts shown to the user, the cause last. -/
def chain : ConfigError → List String
  | emptyName => ["Workflow name must not be empty"]
  | noTriggers => ["Workflow must declare at least one trigger event"]
  | axisNameNotText => ["Matrix axis names must be strings"]
  | includeUnsupported => ["Matrix 'include' is not supported"]
  | axisNotList axis => [s!"Matrix axis '{axis}' must be a list of values"]
  | versionNotQuoted value axis =>
    let text := Decimal.messageStyle.write value
    [s!"Version {text} on axis '{axis}' must be quoted; "
      ++ "YAML reads unquoted versions as numbers, so 3.10 becomes 3.1"]
  | valueNotScalar axis => [s!"Matrix values for '{axis}' must be scalars"]
  | noVersionAxis axis => [s!"Matrix has no '{axis}' axis to select the interpreter version"]
  | exclusionsNotList => ["Matrix 'exclude' must be a list"]
  | exclusionNotMapping => ["Matrix 'exclude' entries must be mappings"]
  | exclusionKeyNotText => ["Exclude keys must be strings"]
  | emptyExclusion number => [s!"Matrix exclude entry {number} is empty"]
  | unknownAxis number axis => [s!"Matrix exclude entry {number} references unknown axis '{axis}'"]
  | emptyManifest => ["Cache manifest must not be empty"]
  | emptyNamespace => ["Cache namespace must not be empty"]
  | emptyRunner => ["Test runner must not be empty"]
  | runnerNotPinned runner => [s!"Test runner '{runner}' must be pinned to a version"]
  | invalidTags cause => ["Invalid test exclusion tags", cause.message]
  | emptyCommand step => [s!"Step '{step}' has an empty run command"]
  | reservedStep step => [s!"Step name '{step}' is reserved"]
  | duplicateStep step => [s!"Duplicate step name: {step}"]
  | zeroTimeout => ["step_timeout_secs must be greater than zero"]

end ConfigError

def standardStepNames : List String :=
  ["upgrade-pip", "install-requirements", "install-test-runner", "run-tests", "verify-install"]

namespace WorkflowConfig

/-- The entry of the matrix that lists exclusions. -/
def excludeName : String := "exclude"

/-- An entry of the matrix that has no meaning and is refused. -/
def includeName : String := "include"

def scalarText? : Value → Option String
  | .string s => some s
  | .integer n => some (toString n)
  | .float x => some (Decimal.configStyle.write x)
  | .bool b => some (if b then "true" else "false")
  | _ => none

def axisValue (config : WorkflowConfig) (axis : String) (value : Value) :
    Except ConfigError String :=
  let text := match scalarText? value with
    | some text => .ok text
    | none => .error (.valueNotScalar axis)
  match value.untagged with
  | .float x => if axis == config.versionAxis then .error (.versionNotQuoted x axis) else text
  | _ => text

/-- The axis that an entry of the matrix declares, if it declares one. -/
def axis? (config : WorkflowConfig) (entry : Value × Value) : Except ConfigError (Option Axis) :=
  match entry.1.text? with
  | none => .error .axisNameNotText
  | some name =>
    if name == excludeName then .ok none
    else if name == includeName then .error .includeUnsupported
    else match entry.2 with
      | .sequence items => do
        let values ← items.mapM (config.axisValue name)
        pure (some ⟨name, values⟩)
      | _ => .error (.axisNotList name)

/-- The axes in the order in which they are declared. -/
def axes (config : WorkflowConfig) : Except ConfigError (List Axis) := do
  pure ((← config.matrix.mapM config.axis?).filterMap id)

/-- The list of exclusions as it is written, if there is one. -/
def exclusionList? (config : WorkflowConfig) : Option Value :=
  (config.matrix.find? fun entry => entry.1.same (.string excludeName)).map (·.2)

/-- The axis and the value that a pair of an exclusion names. -/
def exclusionPair (config : WorkflowConfig) (pair : Value × Value) :
    Except ConfigError (String × String) :=
  match pair.1.text? with
  | none => .error .exclusionKeyNotText
  | some axis => do pure (axis, ← config.axisValue axis pair.2)

def exclusion (config : WorkflowConfig) (entry : Value) : Except ConfigError Exclusion :=
  match entry.untagged with
  | .mapping pairs => pairs.mapM config.exclusionPair
  | _ => .error .exclusionNotMapping

def exclusions (config : WorkflowConfig) : Except ConfigError (List Exclusion) :=
  match config.exclusionList? with
  | none => .ok []
  | some list =>
    match list.untagged with
    | .sequence entries => entries.mapM config.exclusion
    | _ => .error .exclusionsNotList

/-- The filter that leaves out the tests with excluded tags. -/
def testFilter (config : WorkflowConfig) : Except ConfigError TestFilter :=
  match TestFilter.excluding config.test.excludedTags with
  | .ok filter => .ok filter
  | .error cause => .error (.invalidTags cause)

def check (isFaulty : Bool) (fault : ConfigError) : Except ConfigError Unit :=
  if isFaulty then .error fault else .ok ()

/-- Checks that exclusions, the first of which has a number, name some axes and no others. -/
def checkExclusions (axisNames : List String) : (number : Nat) → List Exclusion →
    Except ConfigError Unit
  | _, [] => .ok ()
  | number, exclusion :: rest => do
    check exclusion.isEmpty (.emptyExclusion number)
    match exclusion.find? fun pair => !axisNames.contains pair.1 with
    | some pair => .error (.unknownAxis number pair.1)
    | none => checkExclusions axisNames (number + 1) rest

/-- Checks that commands have names of their own and something to run. -/
def checkCommands (earlier : List String) : List CommandConfig → Except ConfigError Unit
  | [] => .ok ()
  | command :: rest => do
    check command.run.isEmpty (.emptyCommand command.name)
    check (standardStepNames.contains command.name) (.reservedStep command.name)
    check (earlier.contains command.name) (.duplicateStep command.name)
    checkCommands (command.name :: earlier) rest

/-- Checks everything that a configuration must fulfil; the first fault counts. -/
def validate (config : WorkflowConfig) : Except ConfigError Unit := do
  check (Text.isBlankText config.name) .emptyName
  check config.triggers.events.isEmpty .noTriggers
  let axes ← config.axes
  let axisNames := axes.map (·.name)
  check (!axes.isEmpty && !axisNames.contains config.versionAxis)
    (.noVersionAxis config.versionAxis)
  checkExclusions axisNames 1 (← config.exclusions)
  check (Text.isBlankText config.cache.manifest) .emptyManifest
  check (Text.isBlankText config.cache.literal) .emptyNamespace
  check (Text.isBlankText config.test.runner) .emptyRunner
  check (Text.isBlankText config.test.runnerVersion) (.runnerNotPinned config.test.runner)
  discard config.testFilter
  checkCommands [] config.commands
  check (config.stepTimeoutSeconds == 0) .zeroTimeout

end WorkflowConfig

end BuildMatrix
