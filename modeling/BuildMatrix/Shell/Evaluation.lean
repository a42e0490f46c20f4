import BuildMatrix.Shell.Tool

/-!
# Evaluation of scripts

Scripts are carried out statement by statement. Fuel bounds the depth of the evaluation and the
number of rounds of repetitions; a script that runs out of it counts as one that does not end.
-/

namespace BuildMatrix.Shell

/-- The commands that are part of the shell and that change it. -/
def builtins : List String :=
  [":", ".", "alias", "bg", "break", "cd", "command", "continue", "eval", "exec", "exit",
    "export", "fg", "getopts", "hash", "jobs", "local", "read", "readonly", "return", "set",
    "shift", "times", "trap", "type", "ulimit", "umask", "unalias", "unset", "wait"]

def innerTools : List String := ["[", "echo", "false", "kill", "printf", "pwd", "test", "true"]

def isSpecialBuiltin (name : String) : Bool :=
  [":", ".", "break", "continue", "eval", "exec", "exit", "export", "readonly", "return", "set",
    "shift", "trap", "unset"].contains name

def trimLineEnds (s : List Char) : List Char := (s.reverse.dropWhile (· == '\n')).reverse

/-- What the arguments of a shell give when they all count as one word. -/
def argumentFragments (arguments : List String) (quoted : Bool) : List Fragment :=
  (arguments.map fun a =>
    if quoted then Fragment.kept a.toList true else .loose a.toList).intersperse .border

/-- The value of a parameter as a part of a word. -/
def valueFragment (value : String) (quoted : Bool) : List Fragment :=
  [if quoted then .kept value.toList true else .loose value.toList]

/-- The home directory in the place of a tilde at the start of a word. -/
def expandTilde (s : State) (word : Word) : Word :=
  match word with
  | .chars ('~' :: rest) false :: more =>
    if rest.isEmpty || rest.head? = some '/' then
      match s.valueOf? "HOME" with
      | some home => .chars home.toList true :: .chars rest false :: more
      | none => word
    else word
  | word => word

def abandon {α : Type} (message : String) : Run α := do
  fail 2 message
  throw .exit

/-- Gives a value to a variable, which must not be a constant. -/
def assignTo (name value : String) : Run Unit := do
  let s ← get
  if s.constants.contains name then abandon s!"{name}: is read only"
  else set (s.assign name value)

def assignAll (values : List (String × String)) : Run Unit := do
  for (name, value) in values do
    assignTo name value

/-- Where a path leads that is meant for output. -/
def deviceSink? (s : State) (path : String) : Option Sink :=
  match path with
  | "/dev/null" => some .nowhere
  | "/dev/stdout" => some (s.sink 1)
  | "/dev/stderr" => some (s.sink 2)
  | _ => none

/-- Lets a stream lead to a file. -/
def redirectTo (stream : Nat) (target : String) (keep : Bool) : Run Bool := do
  let s ← get
  let path := s.pathOf target
  match deviceSink? s path with
  | some sink => set (s.setSink stream sink); pure true
  | none =>
    let old := if keep then (s.machine.files.read path).toOption.getD [] else []
    match s.machine.files.write path old with
    | .ok files =>
      set { s.setSink stream (.file path) with machine := { s.machine with files } }
      pure true
    | .error e =>
      let text := if e == .missing then "Directory nonexistent" else errorText e
      fail 2 s!"cannot create {target}: {text}"
      pure false

/-- Carries out a redirection with its target. The result is false if that is not possible. -/
def applyRedirect (stream : Nat) (kind : RedirectKind) (target : String) : Run Bool := do
  let s ← get
  match kind with
  | .output => redirectTo stream target false
  | .append => redirectTo stream target true
  | .duplicate =>
    match target.toNat? with
    | some n =>
      if s.sinks.any (fun p => p.1 == n) || n = 0 then
        set (s.setSink stream (s.sink n))
        pure true
      else
        fail 2 s!"{n}: Bad file descriptor"
        pure false
    | none =>
      if target == "-" then set (s.setSink stream .nowhere); pure true
      else
        fail 2 s!"{target}: bad fd number"
        pure false
  | .document =>
    set { s with machine := { s.machine with input := target.toList } }
    pure true
  | .input =>
    if s.pathOf target == "/dev/null" then
      set { s with machine := { s.machine with input := [] } }
      pure true
    else match s.machine.files.read (s.pathOf target) with
      | .ok bytes =>
        set { s with machine := { s.machine with input := charsOfBytes bytes } }
        pure true
      | .error e =>
        let text := if e == .missing then "No such file" else errorText e
        fail 2 s!"cannot open {target}: {text}"
        pure false

/-- A text without separators at its ends. -/
def trimSeparators (isSeparator : Char → Bool) (t : List Char) : List Char :=
  ((t.dropWhile isSeparator).reverse.dropWhile isSeparator).reverse

/-- Gives the parts of a line to variables; the last one takes the rest of the line. -/
def assignParts (isSeparator : Char → Bool) (s : State) : List String → List Char → State
  | [], _ => s
  | [name], t => s.assign name (String.ofList (trimSeparators isSeparator t))
  | name :: names, t =>
    let t := t.dropWhile isSeparator
    assignParts isSeparator (s.assign name (String.ofList (t.takeWhile fun c => !isSeparator c)))
      names (t.dropWhile fun c => !isSeparator c)

def readLine (names : List String) : Run Unit := do
  let s ← get
  let line := s.machine.input.takeWhile (· != '\n')
  let rest := s.machine.input.dropWhile (· != '\n')
  let s := { s with machine := { s.machine with input := rest.drop 1 } }
  set (assignParts (fun c => s.separators.contains c) s names line)
  setTruth !rest.isEmpty

/-- A path whose names of the current and the higher directory are carried out on the text. -/
def logicalPath (path : String) : String :=
  Path.ofLocation (((Path.names path).foldl (fun above name =>
    if name == "." then above
    else if name == ".." then above.drop 1
    else name :: above) []).reverse)

def changeDirectory (arguments : List String) : Run Unit := do
  let s ← get
  let target := match arguments with
    | [] => (s.valueOf? "HOME").getD ""
    | "-" :: _ => (s.valueOf? "OLDPWD").getD (ofText s.directory)
    | target :: _ => target
  let path := logicalPath (s.pathOf target)
  if s.machine.files.isDirectory path then
    if arguments.head? = some "-" then put ((ofText path).toList ++ ['\n'])
    let s ← get
    set { (s.assign "OLDPWD" (ofText s.directory)).assign "PWD" (ofText path) with
      directory := path
      status := 0 }
  else fail 2 s!"cd: can't cd to {target}"

/-- The options of a shell, by letter and name. -/
def shellOptions : List (Char × String) :=
  [('e', "errexit"), ('f', "noglob"), ('I', "ignoreeof"), ('i', "interactive"), ('m', "monitor"),
    ('n', "noexec"), ('s', "stdin"), ('x', "xtrace"), ('v', "verbose"), ('V', "vi"),
    ('E', "emacs"), ('C', "noclobber"), ('a', "allexport"), ('b', "notify"), ('u', "nounset")]

def switchOption (isOn : Bool) (letter : Char) : Run Unit :=
  modify fun s =>
    { s with
      stopsOnFailure := if letter = 'e' then isOn else s.stopsOnFailure
      requiresValues := if letter = 'u' then isOn else s.requiresValues
      shows := if letter = 'x' then isOn else s.shows }

def setOptions : List String → Run Unit
  | [] => setStatus 0
  | "--" :: arguments => modify fun s => { s with arguments, status := 0 }
  | "-o" :: name :: rest | "+o" :: name :: rest => do
    match shellOptions.find? fun o => o.2 == name with
    | some (letter, _) =>
      switchOption true letter
      setOptions rest
    | none => abandon s!"set: Illegal option -o {name}"
  | option :: rest => do
    match option.toList with
    | sign :: letter :: letters =>
      if sign = '-' || sign = '+' then
        for letter in letter :: letters do
          if shellOptions.any fun o => o.1 == letter then switchOption (sign == '-') letter
          else abandon s!"set: Illegal option -{letter}"
        setOptions rest
      else modify fun s => { s with arguments := option :: rest, status := 0 }
    | _ => modify fun s => { s with arguments := option :: rest, status := 0 }

/-- Exports variables, with values if they are given. -/
def exportAll (arguments : List String) : Run Unit := do
  setStatus 0
  for argument in arguments do
    match Text.cut? ['='] argument.toList with
    | some (name, value) =>
      let name := String.ofList name
      assignTo name (String.ofList value)
      modify fun s => s.share name
    | none => modify fun s => s.share argument

/-- Makes variables constant, with values if they are given. -/
def fixAll (arguments : List String) : Run Unit := do
  setStatus 0
  for argument in arguments do
    let (name, value) := match Text.cut? ['='] argument.toList with
      | some (name, value) => (String.ofList name, some (String.ofList value))
      | none => (argument, none)
    match value with
    | some value => assignTo name value
    | none => pure ()
    modify fun s => { s with constants := name :: s.constants }

/-- Makes variables local to the function, with values if they are given. -/
def localize (arguments : List String) : Run Unit := do
  setStatus 0
  for argument in arguments do
    let (name, value) := match Text.cut? ['='] argument.toList with
      | some (name, value) => (String.ofList name, some (String.ofList value))
      | none => (argument, none)
    let s ← get
    match s.saved with
    | none => abandon "local: not in a function"
    | some saved =>
      unless saved.any fun v => v.1 == name do
        set { s with saved := some ((name, s.valueOf? name) :: saved) }
      match value with
      | some value => assignTo name value
      | none => pure ()

def setTraps (arguments : List String) : Run Unit := do
  setStatus 0
  let (action, signals) := match arguments with
    | [] => (none, [])
    | "-" :: signals => (none, signals)
    | action :: signals =>
      if signals.isEmpty || action.toNat?.isSome then (none, action :: signals)
      else (some action, signals)
  for name in signals do
    match if name == "EXIT" then some 0 else signal? name with
    | none => fail 1 s!"trap: {name}: bad trap"
    | some signal =>
      modify fun s =>
        let others := s.traps.filter fun t => t.1 != signal
        { s with traps := match action with
          | some action => (signal, action) :: others
          | none => others }

def statusArgument (name : String) (arguments : List String) : Run Nat := do
  match arguments with
  | [] => pure (← get).status
  | argument :: _ =>
    match argument.toNat? with
    | some n => pure (n % 256)
    | none => abandon s!"{name}: Illegal number: {argument}"

def loopCount (arguments : List String) : Nat :=
  match arguments with
  | [] => 1
  | argument :: _ => argument.toNat?.getD 1

/-- Carries out a part of a script; its failures do not end the script. -/
def guarded {α : Type} (part : Run α) : Run α := do
  let before := (← get).isGuarded
  modify fun s => { s with isGuarded := true }
  let result ← part
  modify fun s => { s with isGuarded := before }
  pure result

/-- Ends the script if the last command failed and failures end scripts. -/
def stopAfterFailure : Run Unit := do
  let s ← get
  if s.stopsOnFailure && !s.isGuarded && s.status != 0 then throw .exit

/--
Carries out a part of a script in a shell of its own, which leaves only what is shared and a
status.
-/
def separately (part : Run Unit) : Run Unit := fun s =>
  match (part.run { s with traps := s.traps.filter fun t => t.2.isEmpty }) with
  | (result, inner) =>
    let outer := { s with machine := inner.machine, status := inner.status }
    match result with
    | .error (.killed signal) => (.error (.killed signal), outer)
    | .error .endless => (.error .endless, outer)
    | _ => (.ok (), outer)

/-- Carries out a part of a script and collects what it writes. -/
def collecting (part : Run Unit) : Run (List Char) := do
  let s ← get
  let position := s.machine.buffers.length
  let sinks := s.sinks
  set { s.setSink 1 (.buffer position) with
    machine := { s.machine with buffers := s.machine.buffers ++ [[]] } }
  separately part
  let s ← get
  let text := collected s.machine position
  set { s with
    sinks
    machine := { s.machine with buffers := s.machine.buffers.take position } }
  pure text

/-- Carries out a body of a loop. The result tells whether the loop goes on. -/
def round (body : Run Unit) : Run Bool := fun s =>
  let (result, inner) := body.run { s with loops := s.loops + 1 }
  let outer := { inner with loops := s.loops }
  match result with
  | .ok () => (.ok true, outer)
  | .error (.leaveLoops count) =>
    (if count ≤ 1 || s.loops = 0 then .ok false else .error (.leaveLoops (count - 1)), outer)
  | .error (.nextRound count) =>
    (if count ≤ 1 || s.loops = 0 then .ok true else .error (.nextRound (count - 1)), outer)
  | .error halt => (.error halt, outer)

/-- Leaves a round of a loop; outside of loops nothing is left. -/
def leaveRound (halt : Halt) : Run Unit := do
  setStatus 0
  if (← get).loops > 0 then throw halt

def inFunction (arguments : List String) (body : Run Unit) : Run Unit := fun s =>
  let leave (inner : State) : State :=
    { inner.restore (inner.saved.getD []) with
      arguments := s.arguments
      saved := s.saved
      loops := s.loops }
  match body.run { s with arguments, saved := some [], loops := 0 } with
  | (.error .leaveFunction, s) | (.ok (), s) => (.ok (), leave s)
  | (.error halt, s) => (.error halt, leave s)

/-- Carries out a script that another one includes. -/
def included (body : Run Unit) : Run Unit := fun s =>
  match body.run s with
  | (.error .leaveFunction, s) => (.ok (), s)
  | other => other

def childState (s : State) (name : String) (arguments : List String)
    (environment : List (String × String)) : State :=
  { machine := s.machine
    name, arguments
    bindings := environment
    exported := environment.map (·.1)
    functions := []
    directory := s.directory
    line := 1
    status := 0
    sinks := s.sinks
    depth := s.depth + 1
    stopsOnFailure := false
    isGuarded := false
    requiresValues := false
    shows := false
    constants := []
    loops := 0
    saved := none
    traps := []
    pending := [] }

inductive Source where
  | text (script : List Char) (name : String) (arguments : List String)
  | file (path : String) (arguments : List String)
  | input
  /-- A script as an argument, which is missing. -/
  | nothing
deriving DecidableEq, Repr

/-- What the arguments of a shell ask it to interpret, and the letters of the options. -/
def sourceOf (program : String) (options : List Char) : List String → List Char × Source
  | [] => (options, .input)
  | argument :: rest =>
    match argument.toList with
    | '-' :: letter :: letters =>
      let options := options ++ letter :: letters
      if (letter :: letters).contains 'c' then
        match rest with
        | [] => (options, .nothing)
        | [script] => (options, .text script.toList program [])
        | script :: name :: arguments => (options, .text script.toList name arguments)
      else sourceOf program options rest
    | _ => (options, .file argument rest)

/-- How a shell that a signal ended is reported by the one that started it. -/
def signalText : Nat → Option String
  | 1 => some "Hangup"
  | 3 => some "Quit"
  | 6 => some "Aborted"
  | 9 => some "Killed"
  | 11 => some "Segmentation fault"
  | 15 => some "Terminated"
  | _ => none

/-- The environment of a program with further variables. -/
def extend (environment : List (String × String)) (values : List (String × String)) :
    List (String × String) :=
  values.foldl (fun e v => (e.filter fun old => old.1 != v.1) ++ [v]) environment

/-- The search path if there is none in the environment. -/
def usualSearchPath : String := "/usr/local/sbin:/usr/local/bin:/usr/sbin:/usr/bin:/sbin:/bin"

/-- The assignments at the start of the arguments of `env`, and what follows them. -/
def leadingAssignments : List String → List (String × String) × List String
  | [] => ([], [])
  | argument :: rest =>
    match Text.cut? ['='] argument.toList with
    | some (name, value) =>
      let (more, rest) := leadingAssignments rest
      ((String.ofList name, String.ofList value) :: more, rest)
    | none => ([], argument :: rest)

/-- The program of a name, with values that hold only for it. -/
def program? (s : State) (values : List (String × String)) (name : String) :
    Except FileError Launch :=
  let searchPath := ((values.find? fun v => v.1 == "PATH").map (·.2)).getD
    ((s.valueOf? "PATH").getD usualSearchPath)
  locate s.machine.files s.directory (toText searchPath) (toText name)

/-- Reports a program that cannot be started in an environment. -/
def failAsEnvironment (s : State) (values : List (String × String)) (name : String) :
    Run Unit := do
  let quoted ← quotation name
  match program? s values name with
  | .error .denied => failAs 126 s!"env: {quoted}: {errorText .denied}"
  | _ => failAs 127 s!"env: {quoted}: {errorText .missing}"

/-- Writes what a command is. -/
def describe (name : String) : Run Unit := do
  let s ← get
  if reservedWords.contains name then put s!"{name} is a shell keyword\n".toList
  else if s.functions.any fun f => f.1 == name then put s!"{name} is a shell function\n".toList
  else if isSpecialBuiltin name then put s!"{name} is a special shell builtin\n".toList
  else if builtins.contains name || innerTools.contains name then
    put s!"{name} is a shell builtin\n".toList
  else match program? s [] name with
    | .ok launch =>
      let path := ofText (launch.arguments.getLastD launch.path)
      put s!"{name} is {path}\n".toList
    | .error _ =>
      put s!"{name}: not found\n".toList
      setStatus 127

mutual

/-- What a part of a word gives. -/
def expandPiece (fuel : Nat) (piece : Piece) : Run (List Fragment) := do
  match fuel with
  | 0 => throw .endless
  | fuel + 1 =>
    match piece with
    | .chars text quoted => pure [.kept text quoted]
    | .parameter "@" none quoted => pure (argumentFragments (← get).arguments quoted)
    | .parameter "*" none false => pure (argumentFragments (← get).arguments false)
    | .parameter name none quoted =>
      let s ← get
      match s.parameter? name with
      | some value => pure (valueFragment value quoted)
      | none =>
        if s.requiresValues then abandon s!"{name}: parameter not set"
        else pure (valueFragment "" quoted)
    | .parameter name (some (operator, word)) quoted =>
      expandModified fuel name operator word quoted
    | .size name quoted =>
      pure (valueFragment (toString (((← get).parameter? name).getD "").length) quoted)
    | .arithmetic expression quoted =>
      let text := unmarked (joined (← expandWord fuel expression))
      match Arithmetic.evaluate (← get).valueOf? text with
      | .ok (value, assigned) =>
        assignAll (assigned.map fun (name, n) => (name, toString n.toInt))
        pure (valueFragment (toString value.toInt) quoted)
      | .error fault => abandon (fault.message (String.ofList text))
    | .output script quoted =>
      let text ← collecting (evaluateText fuel script)
      pure (valueFragment (String.ofList (trimLineEnds text)) quoted)

def expandModified (fuel : Nat) (name operator : String) (word : Word) (quoted : Bool) :
    Run (List Fragment) := do
  match fuel with
  | 0 => throw .endless
  | fuel + 1 =>
    let value := (← get).parameter? name
    let countsAsSet : Bool := match operator.toList with
      | ':' :: _ => value.any fun v => !v.isEmpty
      | _ => value.isSome
    let itself := valueFragment (value.getD "") quoted
    match (operator.toList.filter (· != ':')) with
    | ['-'] => if countsAsSet then pure itself else expandLoosely fuel word quoted
    | ['+'] => if countsAsSet then expandLoosely fuel word quoted else pure []
    | ['='] =>
      if countsAsSet then pure itself
      else
        let text := String.ofList (unmarked (joined (← expandWord fuel word)))
        assignTo name text
        pure (valueFragment text quoted)
    | ['?'] =>
      if countsAsSet then pure itself
      else
        let text := String.ofList (unmarked (joined (← expandWord fuel word)))
        let usual := if operator == ":?" then "parameter not set or null" else "parameter not set"
        abandon (name ++ ": " ++ if text.isEmpty then usual else text)
    | _ =>
      let pattern := Pattern.ofMarked (joined (← expandWord fuel word))
      let s := (value.getD "").toList
      let rest := match operator with
        | "#" => pattern.dropStart false s
        | "##" => pattern.dropStart true s
        | "%" => pattern.dropEnd false s
        | _ => pattern.dropEnd true s
      pure (valueFragment (String.ofList rest) quoted)

/-- What a word gives in the place of a parameter; unless it is quoted, it is cut at separators. -/
def expandLoosely (fuel : Nat) (word : Word) (quoted : Bool) : Run (List Fragment) := do
  match fuel with
  | 0 => throw .endless
  | fuel + 1 =>
    let fragments ← expandWord fuel word
    if quoted then pure fragments
    else
      pure (fragments.map fun
        | .kept text false => .loose text
        | fragment => fragment)

def expandWord (fuel : Nat) (word : Word) : Run (List Fragment) := do
  match fuel with
  | 0 => throw .endless
  | fuel + 1 =>
    let word := expandTilde (← get) word
    pure (← word.mapM fun piece => expandPiece fuel piece).flatten

def expandText (fuel : Nat) (word : Word) : Run String := do
  match fuel with
  | 0 => throw .endless
  | fuel + 1 => pure (String.ofList (unmarked (joined (← expandWord fuel word))))

def expandArguments (fuel : Nat) (words : List Word) : Run (List String) := do
  match fuel with
  | 0 => throw .endless
  | fuel + 1 =>
    let arguments ← words.mapM fun word => do
      let fragments ← expandWord fuel word
      let s ← get
      pure ((Fields.ofFragments s.separators fragments).flatMap
        (argumentsOf s.machine.files s.directory))
    pure arguments.flatten

/-- Carries out a script, line by line. -/
def evaluateText (fuel : Nat) (text : List Char) : Run Unit := do
  match fuel with
  | 0 => throw .endless
  | fuel + 1 =>
    let script := parse text
    for line in script.lines do
      evaluate fuel line
    match script.fault with
    | none => pure ()
    | some (e, line) =>
      modify fun s => { s with line }
      abandon e.message

/-- Carries out what is to be done on the signals that have come. -/
def answerSignals (fuel : Nat) : Run Unit := do
  match fuel with
  | 0 => throw .endless
  | fuel + 1 =>
    let s ← get
    set { s with pending := [] }
    for signal in s.pending do
      evaluateText fuel ((s.trap? signal).getD "").toList
    modify fun inner => { inner with status := s.status }

/-- Carries out a part of a script while streams lead elsewhere. -/
def evaluateRedirected (fuel : Nat) (redirects : List Redirect) (part : Run Unit) : Run Unit := do
  match fuel with
  | 0 => throw .endless
  | fuel + 1 =>
    let before ← get
    let mut isPossible := true
    for redirect in redirects do
      if isPossible then
        let target ← expandText fuel redirect.target
        isPossible ← applyRedirect redirect.stream redirect.kind target
    let changesInput := redirects.any fun r => r.kind == .input || r.kind == .document
    let restore : Run Unit := modify fun s =>
      { s with
        sinks := before.sinks
        machine := if changesInput then { s.machine with input := before.machine.input }
          else s.machine }
    if isPossible then
      try part catch halt => do
        restore
        throw halt
    restore

def evaluate (fuel : Nat) (statement : Statement) : Run Unit := do
  match fuel with
  | 0 => throw .endless
  | fuel + 1 =>
    match statement with
    | .simple line assignments words redirects =>
      modify fun s => { s with line }
      evaluateSimple fuel assignments words redirects
      unless (← get).pending.isEmpty do answerSignals fuel
      stopAfterFailure
    | .redirected body redirects => evaluateRedirected fuel redirects (evaluate fuel body)
    | .pipeline parts =>
      let input := (← get).machine.input
      evaluatePipeline fuel parts
      modify fun s => { s with machine := { s.machine with input } }
      stopAfterFailure
    | .negation body =>
      guarded (evaluate fuel body)
      setTruth ((← get).status != 0)
    | .both left right =>
      guarded (evaluate fuel left)
      if (← get).status = 0 then evaluate fuel right
    | .either left right =>
      guarded (evaluate fuel left)
      if (← get).status != 0 then evaluate fuel right
    | .sequence parts =>
      for part in parts do
        evaluate fuel part
    | .subshell body =>
      separately (evaluate fuel body)
      stopAfterFailure
    | .branch condition body otherwise =>
      guarded (evaluate fuel condition)
      if (← get).status = 0 then evaluate fuel body
      else match otherwise with
        | some otherwise => evaluate fuel otherwise
        | none => setStatus 0
    | .repetition whileFails condition body =>
      let last ← evaluateRounds fuel whileFails condition body 0
      setStatus last
    | .each name words body =>
      let values ← match words with
        | some words => expandArguments fuel words
        | none => pure (← get).arguments
      setStatus 0
      let mut goesOn := true
      for value in values do
        if goesOn then
          assignTo name value
          goesOn ← round (evaluate fuel body)
    | .choice subject cases =>
      let text ← expandText fuel subject
      setStatus 0
      let mut isOpen := true
      for (patterns, body) in cases do
        for pattern in patterns do
          if isOpen then
            let fragments ← expandWord fuel pattern
            if (Pattern.ofMarked (joined fragments)).fits text.toList then
              isOpen := false
              evaluate fuel body
    | .definition name body =>
      modify fun s =>
        { s with functions := (name, body) :: s.functions.filter fun f => f.1 != name, status := 0 }

/-- Carries out the rounds of a repetition; the result is the status of the last one. -/
def evaluateRounds (fuel : Nat) (whileFails : Bool) (condition body : Statement) (last : Nat) :
    Run Nat := do
  match fuel with
  | 0 => throw .endless
  | fuel + 1 =>
    let mut runs := false
    let entered ← round do
      guarded (evaluate fuel condition)
    if entered then
      runs := ((← get).status = 0) != whileFails
    if runs then
      if ← round (evaluate fuel body) then
        evaluateRounds fuel whileFails condition body (← get).status
      else pure 0
    else pure last

/-- Carries out statements, each of which reads what the one before it wrote. -/
def evaluatePipeline (fuel : Nat) (parts : List Statement) : Run Unit := do
  match fuel with
  | 0 => throw .endless
  | fuel + 1 =>
    match parts with
    | [] => pure ()
    | [last] => separately (evaluate fuel last)
    | first :: rest =>
      let text ← collecting (guarded (evaluate fuel first))
      modify fun s => { s with machine := { s.machine with input := text } }
      evaluatePipeline fuel rest

def evaluateSimple (fuel : Nat) (assignments : List (String × Word)) (words : List Word)
    (redirects : List Redirect) : Run Unit := do
  match fuel with
  | 0 => throw .endless
  | fuel + 1 =>
    let arguments ← expandArguments fuel words
    let values ← assignments.mapM fun (name, word) => do
      pure (name, ← expandText fuel word)
    if (← get).shows then
      let shown := values.map (fun v => v.1 ++ "=" ++ v.2) ++ arguments
      unless shown.isEmpty do
        modify fun s => s.write 2 ("+ " ++ Text.joinWith " " shown ++ "\n").toList
    if arguments = ["exec"] then
      for redirect in redirects do
        let target ← expandText fuel redirect.target
        discard (applyRedirect redirect.stream redirect.kind target)
    else
      evaluateRedirected fuel redirects do
        match arguments with
        | [] =>
          let runsScript := (assignments.flatMap (·.2) ++ words.flatten).any fun
            | .output .. => true
            | _ => false
          assignAll values
          unless runsScript do setStatus 0
        | name :: arguments => evaluateCommand fuel values name arguments

/-- Carries out a command with its arguments and the values that hold only for it. -/
def evaluateCommand (fuel : Nat) (values : List (String × String)) (name : String)
    (arguments : List String) : Run Unit := do
  match fuel with
  | 0 => throw .endless
  | fuel + 1 =>
    let s ← get
    match s.functions.find? fun f => f.1 == name with
    | some (_, body) =>
      assignAll values
      inFunction arguments (evaluate fuel body)
    | none =>
      if builtins.contains name then
        let before := s.bindings
        assignAll values
        evaluateBuiltin fuel name arguments
        unless values.isEmpty || isSpecialBuiltin name do
          modify fun s => { s with bindings := before }
      else if innerTools.contains name then runTool name arguments
      else
        match ← startProgram fuel "" values name arguments with
        | .exited _ => pure ()
        | .killed signal =>
          match signalText signal with
          | some text => modify fun s => s.write 2 (text ++ "\n").toList
          | none => pure ()
        | .endless => throw .endless

/--
Starts a program that is no part of the shell, and waits for its end. Messages begin with `label`.
-/
def startProgram (fuel : Nat) (label : String) (values : List (String × String)) (name : String)
    (arguments : List String) : Run Ending := do
  match fuel with
  | 0 => throw .endless
  | fuel + 1 =>
    let s ← get
    let environment := extend s.environment values
    let start (launch : Launch) : Run Ending := do
      let (ending, machine) :=
        runProgram fuel s environment launch (launch.arguments.map ofText ++ arguments)
      modify fun s => { s with machine, status := ending.status }
      pure ending
    match program? s values name with
    | .ok launch => start launch
    | .error .badFormat => start ⟨"sh", "/bin/sh", "/bin/sh", [toText name]⟩
    | .error .denied =>
      fail 126 s!"{label}{name}: Permission denied"
      pure (.exited 126)
    | .error _ =>
      fail 127 s!"{label}{name}: not found"
      pure (.exited 127)

/-- Runs a tool that a shell, or the host, starts. -/
def runProgram (fuel : Nat) (parent : State) (environment : List (String × String))
    (launch : Launch) (arguments : List String) : Ending × Machine :=
  match fuel with
  | 0 => (.endless, parent.machine)
  | fuel + 1 =>
    let state := childState parent (ofText launch.name) arguments environment
    let part : Run Unit :=
      match launch.tool with
      | "sh" | "dash" => runShell fuel (ofText launch.name) arguments
      | "env" => do
        let isFresh := arguments.head? = some "-i"
        let (values, command) :=
          leadingAssignments (if isFresh then arguments.drop 1 else arguments)
        if isFresh then modify fun s => { s with exported := [], bindings := [] }
        match command with
        | [] =>
          for (name, value) in extend (← get).environment values do
            put (name ++ "=" ++ value ++ "\n").toList
          setStatus 0
        | name :: arguments =>
          match program? (← get) values name with
          | .error .missing | .error .denied => failAsEnvironment (← get) values name
          | _ =>
            match ← startProgram fuel "" values name arguments with
            | .exited _ => pure ()
            | .killed signal => throw (.killed signal)
            | .endless => throw .endless
      | tool => runTool tool arguments
    let (result, final) := part.run state
    (.ofHalt final.status result, final.machine)

/-- Interprets what the arguments of a shell ask for, and carries out what is to be done at the
end. -/
def runShell (fuel : Nat) (program : String) (arguments : List String) : Run Unit := do
  match fuel with
  | 0 => throw .endless
  | fuel + 1 =>
    try interpret fuel program arguments catch halt =>
      match halt with
      | .killed signal => throw (.killed signal)
      | .endless => throw .endless
      | _ => pure ()
    let s ← get
    match s.trap? 0 with
    | some action =>
      set { s with traps := s.traps.filter fun t => t.1 != 0 }
      evaluateText fuel action.toList
      setStatus s.status
    | none => pure ()

def interpret (fuel : Nat) (program : String) (arguments : List String) : Run Unit := do
  match fuel with
  | 0 => throw .endless
  | fuel + 1 =>
    let (options, source) := sourceOf program [] arguments
    modify fun s =>
      let s := { s with
        stopsOnFailure := options.contains 'e'
        requiresValues := options.contains 'u'
        shows := options.contains 'x'
        arguments := [] }
      (s.assign "PWD" (ofText s.directory)).assign "PPID" (toString s.parentNumber)
    match source with
    | .text script name arguments =>
      modify fun s => { s with name, arguments }
      evaluateText fuel script
    | .file path arguments =>
      let s ← get
      match s.machine.files.read (s.pathOf path) with
      | .ok bytes =>
        set { s with name := path, arguments }
        evaluateText fuel (charsOfBytes bytes)
      | .error e =>
        set { s with line := 0 }
        let text := if e == .missing then "No such file" else errorText e
        abandon s!"cannot open {path}: {text}"
    | .input => evaluateText fuel (← takeInput)
    | .nothing =>
      modify fun s => { s with line := 0 }
      abandon "-c requires an argument"

/-- Carries out a command that is part of the shell and that changes it. -/
def evaluateBuiltin (fuel : Nat) (name : String) (arguments : List String) : Run Unit := do
  match fuel with
  | 0 => throw .endless
  | fuel + 1 =>
    match name with
    | "exit" =>
      setStatus (← statusArgument name arguments)
      throw .exit
    | "return" =>
      setStatus (← statusArgument name arguments)
      throw .leaveFunction
    | "break" => leaveRound (.leaveLoops (loopCount arguments))
    | "continue" => leaveRound (.nextRound (loopCount arguments))
    | "cd" => changeDirectory arguments
    | "read" => readLine (arguments.filter (· != "-r"))
    | "set" => setOptions arguments
    | "export" => exportAll (operands arguments)
    | "readonly" => fixAll (operands arguments)
    | "local" => localize arguments
    | "trap" => setTraps arguments
    | "umask" => umask arguments
    | "unset" =>
      for argument in operands arguments do
        if (← get).constants.contains argument then abandon s!"unset: {argument}: is read only"
        modify fun s =>
          { s.unassign argument with functions := s.functions.filter fun f => f.1 != argument }
      setStatus 0
    | "shift" =>
      let s ← get
      let count := loopCount arguments
      if count ≤ s.arguments.length then
        set { s with arguments := s.arguments.drop count, status := 0 }
      else abandon "shift: can't shift that many"
    | "eval" => evaluateText fuel (Text.joinWith " " arguments).toList
    | "." =>
      match arguments with
      | [] => setStatus 0
      | path :: _ =>
        let s ← get
        match s.machine.files.read (s.pathOf path) with
        | .ok bytes => included (evaluateText fuel (charsOfBytes bytes))
        | .error _ =>
          if path.toList.contains '/' then abandon s!".: cannot open {path}: No such file"
          else abandon s!".: {path}: not found"
    | "exec" =>
      match arguments with
      | [] => setStatus 0
      | name :: arguments =>
        match ← startProgram fuel "exec: " [] name arguments with
        | .exited _ =>
          modify fun s => { s with traps := [] }
          throw .exit
        | .killed signal => throw (.killed signal)
        | .endless => throw .endless
    | "command" =>
      match operands arguments with
      | [] => setStatus 0
      | name :: _ =>
        if hasOption 'v' (arguments.take 1) then
          let s ← get
          if builtins.contains name || innerTools.contains name then
            put (name ++ "\n").toList
            setStatus 0
          else
            match program? s [] name with
            | .ok launch =>
              put ((ofText (launch.arguments.getLastD launch.path)) ++ "\n").toList
              setStatus 0
            | .error _ => setStatus 127
        else evaluateCommand fuel [] name (arguments.drop 1)
    | "type" =>
      setStatus 0
      for name in arguments do
        describe name
    | "getopts" => setStatus 1
    | _ => setStatus 0

end

end BuildMatrix.Shell
