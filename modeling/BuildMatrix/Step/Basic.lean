import BuildMatrix.TestFilter

/-!
# Steps

A run carries out a list of steps in order. A step installs something, runs the tests, or runs any
other command.
-/

namespace BuildMatrix

/-- The part of a run that a step belongs to. -/
inductive Phase where
  | installDependencies
  | runTests
  | verifyInstall
deriving DecidableEq, Repr

def Phase.name : Phase → String
  | .installDependencies => "install-dependencies"
  | .runTests => "run-tests"
  | .verifyInstall => "verify-install"

inductive PackageAction where
  | upgradeSelf
  /-- Install what a manifest lists; skipped if there is no manifest. -/
  | installManifest (manifest : String)
  | installPinned (package version : String)
  | installLocal (path : String)
deriving DecidableEq, Repr

inductive StepAction where
  /-- Run a program; `python` stands for the provisioned interpreter. -/
  | shell (program : String) (arguments : List String)
  | package (action : PackageAction)
  /-- Run the tests that a filter selects, with a module of the interpreter. -/
  | test (runner : String) (filter : TestFilter)
deriving DecidableEq, Repr

/-- A named action with a limit on its time. -/
structure Step where
  name : String
  phase : Phase
  action : StepAction
  timeoutSeconds : UInt64
deriving DecidableEq, Repr

/-- An interpreter, and the version for which it was provisioned. -/
structure Toolchain where
  version : String
  interpreter : String
deriving DecidableEq, Repr

/-- Why a step was not carried out although nothing failed. -/
inductive SkipReason where
  | manifestMissing (path : String)
deriving DecidableEq, Repr

end BuildMatrix
