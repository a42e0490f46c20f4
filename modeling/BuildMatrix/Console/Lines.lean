import BuildMatrix.Console.Style
import BuildMatrix.Decimal.Binary64
import BuildMatrix.Run.Event
import BuildMatrix.Text.Quoted

/-!
# Lines for the console

The one-line texts in which statuses, events, runs and cache entries are shown.
-/

namespace BuildMatrix.Console

/-- A text with blanks after it up to a width in characters. -/
def padRight (width : Nat) (text : String) : String :=
  text ++ String.ofList (List.replicate (width - text.length) ' ')

def padLeft (width : Nat) (text : String) : String :=
  String.ofList (List.replicate (width - text.length) ' ') ++ text

/-- The number of columns of a console that does not tell its width. -/
def defaultWidth : Nat := 80

def separator : String := String.ofList (List.replicate defaultWidth '─')

/-- A reason with its parts, texts quoted. -/
def skipText : SkipReason → String
  | .manifestMissing path => "ManifestMissing \x7b path: " ++ Text.quoted path ++ " \x7d"

def kibi : Nat := 1024

def mebi : Nat := 1024 * 1024

/-- The binary floating-point number nearest to a natural, as a natural. -/
def nearestNatural (n : Nat) : Nat :=
  match Decimal.Binary64.ofRatio false n 1 with
  | .finite _ mantissa exponent => mantissa * Nat.pow 2 exponent.toNat / Nat.pow 2 (-exponent).toNat
  | _ => n

/-- A quotient with one decimal place; a tie goes to the even digit. -/
def onePlace (num den : Nat) : String :=
  let tenths := Decimal.roundHalfEven (nearestNatural num * 10) den
  toString (tenths / 10) ++ "." ++ toString (tenths % 10)

/-- A number of bytes in the largest unit that does not exceed it. -/
def sizeText (bytes : Nat) : String :=
  if bytes ≥ mebi then onePlace bytes mebi ++ " MiB"
  else if bytes ≥ kibi then onePlace bytes kibi ++ " KiB"
  else toString bytes ++ " B"

namespace Display

def pipelineStatus (d : Display) : PipelineStatus → String
  | .completed => d.paint [.green] "COMPLETED"
  | .failed => d.paint [.red] "FAILED"
  | .cancelled => d.paint [.yellow] "CANCELLED"

def runStatus (d : Display) : RunStatus → String
  | .completed => d.paint [.green] "COMPLETED"
  | .failed step failure =>
    d.paint [.red] "FAILED" ++ " at " ++ d.paint [.bold] step ++ ": "
      ++ d.paint [.dim] failure.message
  | .cancelled (some step) => d.paint [.yellow] "CANCELLED" ++ " during " ++ d.paint [.bold] step
  | .cancelled none => d.paint [.yellow] "CANCELLED"

def cacheStatus (d : Display) : CacheStatus → String
  | .hit => d.paint [.green] "hit"
  | .partialHit key => d.paint [.yellow] "partial" ++ " (" ++ d.paint [.dim] key ++ ")"
  | .miss => d.paint [.dim] "miss"

/-- The icon of an outcome, and its text unless the step succeeded. -/
def outcomeParts : StepOutcome → Icon × String
  | .succeeded => (.check, "")
  | .skipped reason => (.skip, "skipped: " ++ skipText reason)
  | .failed failure => (.cross, failure.message)
  | .cancelled => (.warning, "cancelled")

def runIcon : RunStatus → Icon
  | .completed => .check
  | .failed .. => .cross
  | .cancelled _ => .warning

def planLine (d : Display) (icon : Icon) (plan : Plan) (text : String) : String :=
  d.icon icon ++ " [" ++ d.paint [.cyan] plan.label ++ "] " ++ text

def event (d : Display) : Event → String
  | .pipelineStarted id workflow runs _ =>
    d.icon .launch ++ " Starting " ++ d.paint [.bold] workflow ++ " with "
      ++ d.paint [.cyan] (toString runs) ++ " run(s) (" ++ d.paint [.dim] id.short ++ ")"
  | .runStarted plan => d.planLine .waiting plan "started"
  | .provisioned plan interpreter =>
    d.planLine .info plan ("using " ++ d.paint [.dim] interpreter)
  | .cacheRestored plan key status =>
    d.planLine .package plan ("cache " ++ d.cacheStatus status ++ " for " ++ d.paint [.dim] key)
  | .stepStarted plan step => d.planLine .waiting plan step
  | .stepFinished plan step outcome =>
    let (icon, detail) := outcomeParts outcome
    if detail.isEmpty then d.planLine icon plan (d.paint [.green] step)
    else d.planLine icon plan (step ++ ": " ++ d.paint [.dim] detail)
  | .cacheSaved plan key outcome =>
    let verb := match outcome with
      | .stored => "saved"
      | .alreadyExists => "already saved"
    d.planLine .package plan ("cache " ++ verb ++ " as " ++ d.paint [.dim] key)
  | .runFinished plan status => d.planLine (runIcon status) plan (d.runStatus status)
  | .pipelineCompleted id status =>
    d.icon .info ++ " Workflow (" ++ d.paint [.dim] id.short ++ ") " ++ d.pipelineStatus status

def runSummary (d : Display) (run : Run) : String :=
  let cache := match run.cacheStatus with
    | some status => d.cacheStatus status
    | none => d.paint [.dim] "n/a"
  padRight 28 run.plan.label ++ " " ++ d.runStatus run.status ++ " (steps: "
    ++ toString run.results.length ++ ", cache: " ++ cache ++ ")"

def cacheEntry (d : Display) (entry : CacheSummary) : String :=
  d.paint [.bold] entry.key ++ "  " ++ d.paint [.cyan] (sizeText entry.size.toNat) ++ "  "
    ++ d.paint [.dim] entry.createdAt.renderOffset

/-- The last lines of an output; the number of lines left out comes before them. -/
def outputTail (d : Display) (output : String) (maxLines : Nat) : String :=
  let lines := Text.lines output.toList
  let excess := lines.length - maxLines
  if excess = 0 then output
  else
    d.paint [.dim] "[truncated]" ++ "... (" ++ toString excess ++ " earlier lines)\n"
      ++ Text.joinWith "\n" ((lines.drop excess).map String.ofList)

end Display

end BuildMatrix.Console
