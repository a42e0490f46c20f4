import BuildMatrix.Step.Basic
import BuildMatrix.Version

/-!
# Provisioning

An interpreter of a requested version is looked for among the candidates of a list. The first one
that reports a version which satisfies the request is taken, and those after it are not asked. A
candidate that does not answer in time is passed over; only if no other one is taken does its
silence count as the cause of the failure.
-/

namespace BuildMatrix

/-- Why there is no interpreter for a version. -/
inductive ProvisionError where
  | notFound (version : String) (tried : List String)
  | timeout (version : String) (seconds : UInt64)
deriving DecidableEq, Repr

/-- The text shown to the user. -/
def ProvisionError.message : ProvisionError → String
  | .notFound version tried =>
    s!"no interpreter found for Python {version} (tried: " ++ Text.joinWith ", " tried ++ ")"
  | .timeout version seconds =>
    s!"interpreter probe for Python {version} timed out after {seconds} seconds"

/-- The answer of a candidate that is asked for its version. -/
inductive Probe where
  | reported (version : String)
  | unavailable
  | timedOut
deriving DecidableEq, Repr

namespace Probe

/-- What a candidate answers that exited with zero and wrote a text. -/
def ofText (text : String) : Probe :=
  match Version.reported? text with
  | some version => reported version
  | none => unavailable

/-- Whether the candidate is an interpreter of the requested version. -/
def fits (requested : String) : Probe → Bool
  | reported version => Version.satisfies requested version
  | _ => false

end Probe

/-- Where interpreters are looked for. -/
structure Provisioner where
  /-- The names of programs, with the placeholder for the requested version. -/
  candidates : List String
  /-- The time that each candidate has to answer. -/
  timeoutSeconds : UInt64
deriving DecidableEq, Repr

namespace Provisioner

/-- Stands for the requested version in the name of a candidate. -/
def placeholder : String := "\x7bversion\x7d"

/-- The candidates that are looked for if no others are given. -/
def usualCandidates : List String := ["python" ++ placeholder, "python3", "python"]

/-- The usual candidates, each with ten seconds to answer. -/
def usual : Provisioner := ⟨usualCandidates, 10⟩

def candidatesFor (provisioner : Provisioner) (version : String) : List String :=
  provisioner.candidates.map fun candidate =>
    String.ofList (Text.replace placeholder.toList version.toList candidate.toList)

/--
Asks candidates in order until one fits. Asking may change the state of the host. The flag tells
whether an earlier candidate timed out.
-/
def search {σ : Type} (probe : σ → String → σ × Probe) (version : String) :
    (timedOut : Bool) → List String → σ → σ × Except Bool Toolchain
  | timedOut, [], host => (host, .error timedOut)
  | timedOut, candidate :: rest, host =>
    let (host, answer) := probe host candidate
    if answer.fits version then (host, .ok ⟨version, candidate⟩)
    else search probe version (timedOut || answer == .timedOut) rest host

/-- Looks for an interpreter of a version. -/
def provision {σ : Type} (provisioner : Provisioner) (probe : σ → String → σ × Probe)
    (version : String) (host : σ) : σ × Except ProvisionError Toolchain :=
  let candidates := provisioner.candidatesFor version
  match search probe version false candidates host with
  | (host, .ok toolchain) => (host, .ok toolchain)
  | (host, .error true) => (host, .error (.timeout version provisioner.timeoutSeconds))
  | (host, .error false) => (host, .error (.notFound version candidates))

end Provisioner

end BuildMatrix
