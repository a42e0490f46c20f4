import BuildMatrix.Cache.Policy
import BuildMatrix.Step.Basic
import BuildMatrix.Workflow.Validation

/-!
# Workflows

A workflow is what a valid configuration describes: the plans of its matrix and the steps that each
of them carries out.
-/

namespace BuildMatrix

/-- What is executed: the same steps for each plan of a matrix. -/
structure Workflow where
  name : String
  triggers : List String
  matrix : Matrix
  /-- The axis whose value selects the interpreter. -/
  versionAxis : String
  cache : CachePolicy
  environment : Environment
  steps : List Step
deriving DecidableEq, Repr

namespace Workflow

def plans (workflow : Workflow) : List Plan := workflow.matrix.expand

def isTriggeredBy (workflow : Workflow) (event : String) : Bool :=
  workflow.triggers.any fun trigger => trigger == event

def versionFor? (workflow : Workflow) (plan : Plan) : Option String :=
  plan.get? workflow.versionAxis

def step? (workflow : Workflow) (name : String) : Option Step :=
  workflow.steps.find? fun step => step.name == name

end Workflow

/-- A path with `~/` at its start replaced by the home directory. -/
def expandHome (home path : String) : String :=
  match Text.after? "~/".toList path.toList with
  | some rest => Path.join home (String.ofList rest)
  | none => path

namespace WorkflowConfig

def cacheRoot (config : WorkflowConfig) (home : String) : String :=
  expandHome home config.cache.path

def commandStep (timeout : UInt64) (command : CommandConfig) : Step :=
  ⟨command.name, .runTests, .shell (command.run.headD "") command.run.tail, timeout⟩

/-- The steps: installation, commands, tests, and the installation of the package itself. -/
def steps (config : WorkflowConfig) (filter : TestFilter) : List Step :=
  let timeout := config.stepTimeoutSeconds
  let install (name : String) (action : PackageAction) : Step :=
    ⟨name, .installDependencies, .package action, timeout⟩
  [install "upgrade-pip" .upgradeSelf,
    install "install-requirements" (.installManifest config.cache.manifest),
    install "install-test-runner" (.installPinned config.test.runner config.test.runnerVersion)]
    ++ config.commands.map (commandStep timeout)
    ++ [⟨"run-tests", .runTests, .test config.test.runner filter, timeout⟩,
      ⟨"verify-install", .verifyInstall, .package (.installLocal "."), timeout⟩]

def cachePolicy (config : WorkflowConfig) (home : String) : CachePolicy :=
  ⟨config.cache.manifest, config.cacheRoot home, config.cache.literal, config.cache.restoreKeys⟩

/-- The workflow that a configuration describes, if it is valid. -/
def toWorkflow (config : WorkflowConfig) (home : String) : Except ConfigError Workflow := do
  config.validate
  let axes ← config.axes
  let exclusions ← config.exclusions
  let filter ← config.testFilter
  pure {
    name := config.name
    triggers := config.triggers.events
    matrix := ⟨axes, exclusions⟩
    versionAxis := config.versionAxis
    cache := config.cachePolicy home
    environment := config.environment.toEnvironment
    steps := config.steps filter }

end WorkflowConfig

end BuildMatrix
