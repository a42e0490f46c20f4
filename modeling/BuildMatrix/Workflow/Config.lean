import BuildMatrix.Environment
import BuildMatrix.Yaml.Value

/-!
# Workflow configurations

A configuration describes a workflow: its triggers, its build matrix, its dependency cache, and
what its runs do. Everything has a default; the configuration without any entry is the built-in
workflow.
-/

namespace BuildMatrix

/-- The events that start a workflow: one, or a list. -/
inductive Triggers where
  | one (event : String)
  | many (events : List String)
deriving DecidableEq, Repr

def Triggers.events : Triggers → List String
  | one event => [event]
  | many events => events

structure CacheConfig where
  /-- The file that lists the dependencies. -/
  manifest : String := "requirements.txt"
  /-- The directory of the local caches; `~/` at its start is the home directory. -/
  path : String := "~/.cache/ci-matrix/pip"
  /-- The literal in the namespace of cache keys. -/
  literal : String := "pip"
  /-- The starts of keys that may stand in; none means the namespace. -/
  restoreKeys : List String := []
deriving DecidableEq, Repr

structure EnvironmentConfig where
  skipNativeBuild : Bool := true
  /-- Whether the steps are told that they run unattended. -/
  unattended : Bool := true
  extra : Environment := .empty
deriving DecidableEq, Repr

namespace EnvironmentConfig

def skipNativeBuildVariable : String := "SKIP_CYTHON"

def unattendedVariable : String := "CI"

/-- The environment; the switches win over further variables of their names. -/
def toEnvironment (config : EnvironmentConfig) : Environment :=
  let env := config.extra
  let env := if config.skipNativeBuild then env.set skipNativeBuildVariable "1" else env
  if config.unattended then env.set unattendedVariable "true" else env

end EnvironmentConfig

structure TestConfig where
  /-- The package of the test runner, which is also the module that is run. -/
  runner : String := "pytest"
  runnerVersion : String := "6.2.2"
  excludedTags : List String := ["bug"]
deriving DecidableEq, Repr

/-- A command that is run before the tests. -/
structure CommandConfig where
  name : String
  /-- The program and its arguments. -/
  run : List String
deriving DecidableEq, Repr

/-- The values of the version axis of the built-in workflow. -/
def builtinVersions : List Yaml.Value := [.string "3.7", .string "3.8", .string "3.9"]

structure WorkflowConfig where
  name : String := "Python package"
  triggers : Triggers := .many ["push"]
  /-- The axis whose value selects the interpreter. -/
  versionAxis : String := "python-version"
  /-- The axes by name, and perhaps a list of exclusions. -/
  matrix : List (Yaml.Value × Yaml.Value) :=
    [(.string "python-version", .sequence builtinVersions)]
  cache : CacheConfig := {}
  environment : EnvironmentConfig := {}
  test : TestConfig := {}
  /-- Commands that are run after the installation and before the tests. -/
  commands : List CommandConfig := []
  stepTimeoutSeconds : UInt64 := 1800
deriving Repr

end BuildMatrix
