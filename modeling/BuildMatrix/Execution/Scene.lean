import BuildMatrix.FileSystem.Operations
import BuildMatrix.Provision
import BuildMatrix.Step.Command
import BuildMatrix.Time.Instant

/-!
# Scenes and replies

Runs share the files of their host, a clock and a signal that cancels them all. While a run waits
for the host, the host may change the files, request the cancellation, and give an answer or not.
-/

namespace BuildMatrix

/-- What all runs share. The signal, once given, is never taken back. -/
structure Scene where
  files : FileSystem
  cancelled : Bool
  clock : Instant

inductive Answer (α ε : Type) where
  /-- There is none yet. -/
  | pending
  | ready (result : Except ε α)
  /-- The request cannot be answered, and who made it cannot go on. -/
  | panicked (message : String)

/-- What the host does for a run that waits for it. -/
structure Reply where
  files : FileSystem → FileSystem
  cancels : Bool
  toolchain : Answer Toolchain ProvisionError
  /-- The answer to a command that was handed over. -/
  output : Answer Output RunnerError
  storeFails : Bool

namespace Reply

/-- The host does nothing. -/
def none : Reply := ⟨id, false, .pending, .pending, false⟩

end Reply

namespace Scene

def after (scene : Scene) (reply : Reply) : Scene :=
  { scene with
    files := reply.files scene.files
    cancelled := scene.cancelled || reply.cancels }

def cancel (scene : Scene) : Scene := { scene with cancelled := true }

end Scene

end BuildMatrix
