import BuildMatrix.Execution.Engine

/-!
# A deterministic schedule

A host answers each request when it is made. On such a host an execution can be carried out one
task at a time: first every task is staged, then each task, in the order of the plans, is taken
from provisioning to its end, and last the runs are joined. This is one of the orders in which the
tasks may take turns.
-/

namespace BuildMatrix

structure Host where
  provision : FileSystem → (version : String) → Reply
  command : FileSystem → Command → Reply

namespace Progress

/-- The reply of a host to a list of steps. -/
def replyOf (host : Host) (context : RunContext) (scene : Scene) (progress : Progress) : Reply :=
  match progress.command? context with
  | some command => host.command scene.files command
  | none => .none

namespace History

/-- Gives the list a turn. -/
def step (host : Host) (context : RunContext) (h : History) : History :=
  h.move context (.advance (h.progress.replyOf host context h.scene))

/-- Gives the list at most `fuel` turns. -/
def playWithin (host : Host) (context : RunContext) : (fuel : Nat) → History → History
  | 0, h => h
  | fuel + 1, h =>
    if h.progress.isOver then h else playWithin host context fuel (h.step host context)

/--
Carries out a list of steps. A host that answers each command, or cancels, needs at most three turns
for each step, and there is one turn after the last step.
-/
def play (host : Host) (context : RunContext) (steps : List Step) (scene : Scene) : History :=
  playWithin host context (3 * steps.length + 1) (.start steps scene)

end History

end Progress

namespace Execution

def replyTo (host : Host) (e : Execution) (task : Task) : Reply :=
  match task.stage with
  | .provisioning version _ _ => host.provision e.shared.scene.files version
  | .stepping setup _ progress =>
    progress.replyOf host (Task.context e.job task.plan setup) e.shared.scene
  | _ => .none

/-- Gives a task a turn. -/
def step (host : Host) (e : Execution) (position : Nat) : Execution :=
  match e.tasks[position]? with
  | none => e
  | some task => e.move (.turn position (e.replyTo host task))

/-- Whether a task waits to be provisioned, or is over. -/
def isStaged (e : Execution) (position : Nat) : Bool :=
  match e.tasks[position]? with
  | none => true
  | some task =>
    match task.stage with
    | .provisioning .. => true
    | _ => task.isOver

def isOver (e : Execution) (position : Nat) : Bool :=
  match e.tasks[position]? with
  | none => true
  | some task => task.isOver

/-- Gives a task turns until a condition holds, at most `fuel` of them. -/
def stepUntil (host : Host) (stop : Execution → Nat → Bool) :
    (fuel : Nat) → Execution → Nat → Execution
  | 0, e, _ => e
  | fuel + 1, e, position =>
    if stop e position then e else stepUntil host stop fuel (e.step host position) position

/-- A bound on the number of turns of a task whose host answers each request, or cancels. -/
def turnBound (workflow : Workflow) : Nat :=
  3 * workflow.steps.length + workflow.cache.restoreKeys.length + 16

def play (host : Host) (e : Execution) : Execution :=
  let positions := List.range e.tasks.length
  let bound := turnBound e.job.workflow
  let staged := positions.foldl (fun e position => stepUntil host isStaged bound e position) e
  let ended := positions.foldl (fun e position => stepUntil host isOver bound e position) staged
  ended.run (List.replicate (e.tasks.length + 1) .join)

end Execution

end BuildMatrix
