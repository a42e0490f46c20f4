import BuildMatrix.FileSystem.Operations
import BuildMatrix.Workflow.Basic
import BuildMatrix.Workflow.Reading

/-!
# Loading configurations

A configuration is loaded from a file, or is the built-in one. Only valid configurations are
loaded.
-/

namespace BuildMatrix

/-- Why a text is no valid configuration. -/
inductive TextError where
  /-- The text is no YAML, or does not have the members of a configuration. -/
  | unreadable
  | invalid (cause : ConfigError)
deriving DecidableEq, Repr

def TextError.chain : TextError → List String
  | .unreadable => ["invalid YAML"]
  | .invalid cause => cause.chain

/-- Why no configuration is loaded from a file. -/
inductive LoadError where
  | file (path : String) (cause : FileError)
  | text (path : String) (cause : TextError)
deriving DecidableEq, Repr

/-- The texts shown to the user, the cause last. -/
def LoadError.chain : LoadError → List String
  | .file path cause =>
    [s!"Failed to load workflow {path}", s!"Failed to read {path}", cause.message]
  | .text path cause => s!"Failed to load workflow {path}" :: cause.chain

namespace WorkflowConfig

def ofText (text : String) : Except TextError WorkflowConfig :=
  match ofYaml? text with
  | none => .error .unreadable
  | some config =>
    match config.validate with
    | .ok () => .ok config
    | .error cause => .error (.invalid cause)

/-- The configuration in a file; without a file it is the built-in one. -/
def load (files : FileSystem) : (path : Option String) → Except LoadError WorkflowConfig
  | none => .ok {}
  | some path =>
    match files.readText path with
    | .error cause => .error (.file path cause)
    | .ok text =>
      match ofText text with
      | .ok config => .ok config
      | .error cause => .error (.text path cause)

end WorkflowConfig

end BuildMatrix
