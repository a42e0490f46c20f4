import BuildMatrix.Shell.Condition
import BuildMatrix.Shell.Filter
import BuildMatrix.Shell.Template

/-!
# Tools

The commands that need no other command: they write, compare, read and change files, wait, and send
signals. Some of them are also part of the shell.
-/

namespace BuildMatrix.Shell

def echo (arguments : List String) : Run Unit := do
  put (echoText arguments)
  setStatus 0

def printf (arguments : List String) : Run Unit := do
  match arguments with
  | [] => fail 2 "printf: usage: printf format [arg ...]"
  | "--" :: template :: arguments | template :: arguments =>
    let result := printed template arguments
    put result.text
    setStatus 0
    for argument in result.faulty do
      fail 1 s!"printf: {argument}: expected numeric value"
    match result.unknown with
    | none => pure ()
    | some none => fail 2 "printf: missing format character"
    | some (some directive) => fail 2 s!"printf: {directive}: invalid directive"

/-- Decides a condition. -/
def test (name : String) (arguments : List String) : Run Unit := do
  let s ← get
  match Condition.holds ⟨s.machine.files, s.directory⟩ arguments with
  | .ok holds => setTruth holds
  | .error fault => fail 2 s!"{name}: {fault.message}"

/-- Decides a condition between brackets. -/
def bracket (arguments : List String) : Run Unit :=
  if arguments.getLast? = some "]" then test "[" arguments.dropLast
  else fail 2 "[: missing ]"

/-- The number of milliseconds that a text such as `0.5` or `2m` writes. -/
def milliseconds? (text : String) : Option Nat :=
  let whole := text.toList.takeWhile Char.isDigit
  let rest := text.toList.dropWhile Char.isDigit
  let (fraction, unit) := match rest with
    | '.' :: rest => (rest.takeWhile Char.isDigit, rest.dropWhile Char.isDigit)
    | rest => ([], rest)
  let value := fun (digits : List Char) => (String.ofList digits).toNat?.getD 0
  let thousandths := value ((fraction ++ ['0', '0', '0']).take 3)
  if whole.isEmpty && fraction.isEmpty then none
  else
    let total := 1000 * value whole + thousandths
    match unit with
    | [] | ['s'] => some total
    | ['m'] => some (60 * total)
    | ['h'] => some (3600 * total)
    | ['d'] => some (86400 * total)
    | _ => none

def sleep (arguments : List String) : Run Unit := do
  if arguments.isEmpty then failWithHint "sleep" "missing operand"
  else if arguments.contains "infinity" then throw .endless
  else match arguments.find? fun a => (milliseconds? a).isNone with
    | some argument => failWithHint "sleep" ("invalid time interval " ++ (← quotation argument))
    | none =>
      let times := arguments.filterMap milliseconds?
      modify fun s =>
        { s with
          machine := { s.machine with milliseconds := times.foldl (· + ·) s.machine.milliseconds } }
      setStatus 0

def setFiles (files : FileSystem) : Run Unit :=
  modify fun s => { s with machine := { s.machine with files } }

/-- Makes directories, on demand with those above them. -/
def mkdir (arguments : List String) : Run Unit := do
  setStatus 0
  if (operands arguments).isEmpty then failWithHint "mkdir" "missing operand"
  for argument in operands arguments do
    let s ← get
    let path := s.pathOf argument
    let (files, result) :=
      if hasOption 'p' arguments then s.machine.files.makeDirectories path
      else match s.machine.files.makeDirectory path with
        | .ok files => (files, .ok ())
        | .error e => (s.machine.files, .error e)
    setFiles files
    match result with
    | .ok () => pure ()
    | .error e =>
      let quoted ← quotation argument
      failAs 1 s!"mkdir: cannot create directory {quoted}: {errorText e}"

/-- Makes the files that are missing. -/
def touch (arguments : List String) : Run Unit := do
  setStatus 0
  if (operands arguments).isEmpty then failWithHint "touch" "missing file operand"
  for argument in operands arguments do
    let s ← get
    let path := s.pathOf argument
    if (s.machine.files.node? path).isNone then
      match s.machine.files.write path [] with
      | .ok files => setFiles files
      | .error e => failAs 1 s!"touch: cannot touch '{argument}': {errorText e}"

/-- Removes files, on demand with all that is below them. -/
def rm (arguments : List String) : Run Unit := do
  setStatus 0
  if (operands arguments).isEmpty && !hasOption 'f' arguments then
    failWithHint "rm" "missing operand"
  for argument in operands arguments do
    let s ← get
    let path := s.pathOf argument
    match s.machine.files.lookup false path with
    | .ok (.present _ (.directory _)) =>
      let isEmpty := (namesIn s.machine.files path).isEmpty
      if hasOption 'r' arguments || hasOption 'R' arguments
          || (hasOption 'd' arguments && isEmpty) then
        setFiles (s.machine.files.removeAll path)
      else failAs 1 s!"rm: cannot remove '{argument}': Is a directory"
    | .ok (.present _ _) => setFiles (s.machine.files.removeAll path)
    | _ =>
      unless hasOption 'f' arguments do
        failAs 1 s!"rm: cannot remove '{argument}': No such file or directory"

/-- Removes empty directories. -/
def rmdir (arguments : List String) : Run Unit := do
  setStatus 0
  if (operands arguments).isEmpty then failWithHint "rmdir" "missing operand"
  for argument in operands arguments do
    let s ← get
    let path := s.pathOf argument
    let failure : String ← match s.machine.files.lookup false path with
      | .ok (.present _ (.directory _)) =>
        if (namesIn s.machine.files path).isEmpty then
          setFiles (s.machine.files.removeAll path)
          pure ""
        else pure "Directory not empty"
      | .ok (.present _ _) => pure (errorText .notDirectory)
      | .ok (.absent _) => pure (errorText .missing)
      | .error e => pure (errorText e)
    unless failure.isEmpty do failAs 1 s!"rmdir: failed to remove '{argument}': {failure}"

/-- Whether a path leads to a directory, and then the path of a name in it. -/
def targetIn (files : FileSystem) (path name : String) : String :=
  if files.isDirectory path then Path.join path name else path

def lastName (path : String) : String := (Path.names path).getLastD path

/-- Makes links, or further names for files. -/
def ln (arguments : List String) : Run Unit := do
  setStatus 0
  match operands arguments with
  | [] => failWithHint "ln" "missing file operand"
  | target :: rest =>
    let s ← get
    let named := rest.headD (lastName target)
    let path := targetIn s.machine.files (s.pathOf named) (lastName (toText target))
    let kind := if hasOption 's' arguments then "symbolic link" else "hard link"
    let files := if hasOption 'f' arguments then s.machine.files.removeAll path
      else s.machine.files
    if hasOption 's' arguments then
      match files.makeLink (toText target) path with
      | .ok files => setFiles files
      | .error e => failAs 1 s!"ln: failed to create {kind} '{named}': {errorText e}"
    else
      match files.read (s.pathOf target) with
      | .ok contents =>
        match files.write path contents with
        | .ok files => setFiles files
        | .error e => failAs 1 s!"ln: failed to create {kind} '{named}': {errorText e}"
      | .error e => failAs 1 s!"ln: failed to access '{target}': {errorText e}"

/-- Writes where links lead. -/
def readlink (arguments : List String) : Run Unit := do
  setStatus 0
  for argument in operands arguments do
    let s ← get
    match s.machine.files.lookup false (s.pathOf argument) with
    | .ok (.present _ (.link target)) => put ((ofText target).toList ++ ['\n'])
    | _ => setStatus 1

/-- Copies or moves files. -/
def copy (tool : String) (arguments : List String) : Run Unit := do
  setStatus 0
  match (operands arguments).reverse with
  | [] => failWithHint tool "missing file operand"
  | [source] => failWithHint tool s!"missing destination file operand after '{source}'"
  | target :: sources =>
    for source in sources.reverse do
      let s ← get
      let files := s.machine.files
      let path := s.pathOf source
      let goal := targetIn files (s.pathOf target) (lastName (toText source))
      match files.lookup (tool == "cp") path with
      | .ok (.present _ node) =>
        let isDirectory := match node with
          | .directory _ => true
          | _ => false
        if isDirectory && tool == "cp" && !hasOption 'r' arguments && !hasOption 'R' arguments then
          failAs 1 s!"cp: -r not specified; omitting directory '{source}'"
        else match files.lookup true goal with
          | .ok (.absent location) | .ok (.present location _) =>
            let files := if tool == "mv" then files.removeAll path else files
            setFiles (files.placeAt location node)
          | .error e => failAs 1 s!"{tool}: cannot create regular file '{target}': {errorText e}"
      | .ok (.absent _) => failAs 1 s!"{tool}: cannot stat '{source}': {errorText .missing}"
      | .error e => failAs 1 s!"{tool}: cannot stat '{source}': {errorText e}"

/-- Whether a mode lets a file be executed, if it says so. -/
def executableMode? (mode : String) : Option Bool :=
  if mode.toList.contains 'x' then some (!mode.toList.contains '-')
  else match mode.toList.getLast?, mode.toNat? with
    | some _, some _ => some (mode.toList.any fun c => c = '1' || c = '5' || c = '7')
    | _, _ => none

/-- Changes whether files may be executed. -/
def chmod (arguments : List String) : Run Unit := do
  setStatus 0
  match arguments with
  | [] => failWithHint "chmod" "missing operand"
  | mode :: sources =>
    for source in sources do
      let s ← get
      let path := s.pathOf source
      match executableMode? mode, s.machine.files.node? path with
      | _, none => failAs 1 s!"chmod: cannot access '{source}': {errorText .missing}"
      | some isExecutable, some _ =>
        match s.machine.files.setExecutable path isExecutable with
        | .ok files => setFiles files
        | .error _ => pure ()
      | none, some _ => pure ()

def listed (arguments : List String) (names : List String) : List String :=
  if hasOption 'a' arguments then "." :: ".." :: names
  else if hasOption 'A' arguments then names
  else names.filter fun name => name.toList.head? != some '.'

/-- Lists the names in directories, one on a line. Files come first. -/
def ls (arguments : List String) : Run Unit := do
  setStatus 0
  let paths := operands arguments
  let paths := if paths.isEmpty then ["."] else paths
  let files := (← get).machine.files
  let mut directories := []
  let mut isFirst := true
  for argument in paths do
    let path := (← get).pathOf argument
    match files.node? path with
    | some (.directory _) => directories := directories ++ [(argument, path)]
    | some _ =>
      put (argument.toList ++ ['\n'])
      isFirst := false
    | none =>
      failAs 2 s!"ls: cannot access '{argument}': No such file or directory"
  for (argument, path) in directories do
    if paths.length > 1 then
      put ((if isFirst then "" else "\n") ++ argument ++ ":\n").toList
      isFirst := false
    put ((listed arguments (namesIn files path)).flatMap fun name => (ofText name).toList ++ ['\n'])

/-- The numbers of the signals, by name. -/
def signalNumbers : List (String × Nat) :=
  [("HUP", 1), ("INT", 2), ("QUIT", 3), ("ABRT", 6), ("KILL", 9), ("USR1", 10), ("SEGV", 11),
    ("USR2", 12), ("PIPE", 13), ("ALRM", 14), ("TERM", 15), ("CHLD", 17), ("CONT", 18),
    ("STOP", 19)]

def signal? (text : String) : Option Nat :=
  let name := match Text.after? "SIG".toList text.toList with
    | some name => String.ofList name
    | none => text
  match signalNumbers.find? fun s => s.1 == name with
  | some (_, number) => some number
  | none => name.toNat?

/-- Whether a program goes on after a signal. -/
def isHarmless (signal : Nat) : Bool := signal == 0 || signal == 17 || signal == 18

/-- How the tool that sends signals is used. -/
def killUsage : String :=
  "kill: Usage: kill [-s sigspec | -signum | -sigspec] [pid | job]... or\nkill -l [exitstatus]"

/-- The signal and the processes that arguments name. -/
def killArguments (arguments : List String) : Except String (Nat × List String) :=
  match arguments with
  | [] => .error killUsage
  | "-s" :: name :: processes =>
    match signal? name with
    | some signal => named signal processes
    | none => .error s!"kill: invalid signal number or name: {name}"
  | "--" :: processes => named 15 processes
  | argument :: processes =>
    match argument.toList with
    | '-' :: c :: name =>
      match signal? (String.ofList (c :: name)) with
      | some signal => named signal processes
      | none => .error s!"kill: Illegal option -{c}"
    | _ => named 15 arguments
where
  /-- A signal for processes, which must be named. -/
  named (signal : Nat) (processes : List String) : Except String (Nat × List String) :=
    if processes.isEmpty then .error killUsage else .ok (signal, processes)

def receive (signal : Nat) : Run Unit := do
  let s ← get
  match s.trap? signal with
  | some action =>
    unless action.isEmpty || signal = 9 do set { s with pending := s.pending ++ [signal] }
    if signal = 9 then throw (.killed signal)
  | none => unless isHarmless signal do throw (.killed signal)

/-- Sends a signal to processes. -/
def kill (arguments : List String) : Run Unit := do
  match killArguments arguments with
  | .error message => fail 2 message
  | .ok (signal, processes) =>
    setStatus 0
    for process in processes do
      let s ← get
      match process.toInt? with
      | none => fail 2 s!"kill: Illegal number: {process}"
      | some number =>
        if number = s.process then receive signal
        else if number = s.parentNumber then
          if s.depth = 1 then
            set { s with machine := { s.machine with signals := s.machine.signals ++ [signal] } }
        else fail 1 "kill: No such process\n"

/-- Shows the rights that files are made without. -/
def umask (arguments : List String) : Run Unit := do
  setStatus 0
  if arguments.isEmpty then put "0022\n".toList

/-- Carries out a tool that needs no other command. -/
def runTool (name : String) (arguments : List String) : Run Unit :=
  match name with
  | "echo" => echo arguments
  | "printf" => printf arguments
  | "test" => test "test" arguments
  | "[" => bracket arguments
  | "true" => setStatus 0
  | "false" => setStatus 1
  | "cat" => cat arguments
  | "sleep" => sleep arguments
  | "mkdir" => mkdir arguments
  | "touch" => touch arguments
  | "rm" => rm arguments
  | "rmdir" => rmdir arguments
  | "ln" => ln arguments
  | "readlink" => readlink arguments
  | "cp" => copy "cp" arguments
  | "mv" => copy "mv" arguments
  | "chmod" => chmod arguments
  | "ls" => ls arguments
  | "head" => head arguments
  | "tail" => tail arguments
  | "wc" => wc arguments
  | "seq" => seq arguments
  | "yes" => yes arguments
  | "tr" => exchangeCharacters arguments
  | "sort" => sort arguments
  | "grep" => grep arguments
  | "tee" => tee arguments
  | "basename" => basename arguments
  | "dirname" => dirname arguments
  | "uname" => do
    put "Linux\n".toList
    setStatus 0
  | "kill" => kill arguments
  | "pwd" => do
    let s ← get
    let path :=
      if hasOption 'P' arguments then
        (s.machine.files.canonical s.directory).toOption.getD s.directory
      else s.directory
    put ((ofText path).toList ++ ['\n'])
    setStatus 0
  | name => fail 127 s!"{name}: not found"

end BuildMatrix.Shell
