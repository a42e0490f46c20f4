import BuildMatrix.Text.Split

/-!
# Command line arguments

A command line names a command, possibly one below another, and gives it options. An option is a
long name after two dashes or a letter after one; letters may share a dash. The value of an option
follows an equality sign, stands directly after the letter, or is the next argument, which then may
not look like an option. After `--` nothing is an option. No option may be given twice to one
command, except that the verbose flag may be given to each command on the way.

A value that is the next argument is checked when the next option comes, or at the end. So of two
faults the later one may be reported first.
-/

namespace BuildMatrix.CommandLine

/-- The commands, with the ones that only group others. -/
inductive Level where
  | top
  | run
  | validate
  | plan
  | cache
  | cacheList
deriving DecidableEq, Repr

inductive OptionName where
  | file
  | workdir
  | event
  | noCacheStore
  | json
  | verbose
  | help
  | version
deriving DecidableEq, Repr

/-- The name after two dashes. -/
def OptionName.long : OptionName → String
  | file => "file"
  | workdir => "workdir"
  | event => "event"
  | noCacheStore => "no-cache-store"
  | json => "json"
  | verbose => "verbose"
  | help => "help"
  | version => "version"

def OptionName.letter? : OptionName → Option Char
  | file => some 'f'
  | verbose => some 'v'
  | help => some 'h'
  | version => some 'V'
  | _ => none

def OptionName.takesValue : OptionName → Bool
  | file | workdir | event => true
  | _ => false

/-- Whether an option accepts a value. The value of an option about a path is not empty. -/
def OptionName.accepts (option : OptionName) (value : String) : Bool :=
  option != .workdir || !value.isEmpty

/-- What is wrong with a command line, or asked for instead of a command. -/
inductive Misuse where
  | help
  | version
  /-- Nothing was given to a command that only groups others. -/
  | helpForNothing
  | unknownArgument
  | invalidValue
  | tooManyValues
  | repeatedOption
  | invalidSubcommand
  | missingSubcommand
  | missingOption
deriving DecidableEq, Repr

namespace Level

def options : Level → List OptionName
  | top => [.verbose, .help, .version]
  | run => [.file, .workdir, .event, .noCacheStore, .json, .verbose, .help]
  | validate => [.file, .json, .verbose, .help]
  | plan => [.file, .workdir, .verbose, .help]
  | cache => [.verbose, .help]
  | cacheList => [.json, .verbose, .help]

/-- The commands below a command, by name. -/
def subcommands : Level → List (String × Level)
  | top => [("run", run), ("validate", validate), ("plan", plan), ("cache", cache)]
  | cache => [("list", cacheList)]
  | _ => []

def isGroup (level : Level) : Bool := !level.subcommands.isEmpty

/-- The command of a name below a command. -/
def subcommand? (level : Level) (name : String) : Option Level :=
  (level.subcommands.find? fun s => s.1 == name).map (·.2)

/-- The name of the command that explains others. -/
def helpCommand : String := "help"

/-- Whether a name is that of a command below a command, or asks for an explanation. -/
def knows (level : Level) (name : String) : Bool :=
  level.isGroup && (name == helpCommand || (level.subcommand? name).isSome)

/-- The options that must be given. -/
def required : Level → List OptionName
  | validate => [.file]
  | _ => []

def long? (level : Level) (name : String) : Option OptionName :=
  level.options.find? fun option => option.long == name

def letter? (level : Level) (c : Char) : Option OptionName :=
  level.options.find? fun option => option.letter? == some c

end Level

/-- Options with their values; a flag has the empty one. -/
abbrev Given := List (OptionName × String)

structure Reading where
  given : Given
  /-- The last option with a value, if the value was not checked, or has not come, yet. -/
  pending : Option (OptionName × Option String)
  /-- Whether `--` has come. -/
  escaped : Bool
deriving DecidableEq, Repr

namespace Reading

def start : Reading := ⟨[], none, false⟩

def has (r : Reading) (option : OptionName) : Bool := r.given.any fun g => g.1 == option

/-- Whether the next argument may be the value of an option. -/
def isWaiting (r : Reading) : Bool :=
  match r.pending with
  | some (_, none) => true
  | _ => false

def note (r : Reading) (option : OptionName) (value : String) : Except Misuse Reading :=
  if r.has option then .error .repeatedOption
  else if option.accepts value then .ok { r with given := r.given ++ [(option, value)] }
  else .error .invalidValue

/-- Checks the value that was put off. -/
def settle (r : Reading) : Except Misuse Reading :=
  match r.pending with
  | none => .ok r
  | some (_, none) => .error .invalidValue
  | some (option, some value) => { r with pending := none }.note option value

def flag (r : Reading) (option : OptionName) : Except Misuse Reading := do
  let r ← r.settle
  match option with
  | .help => throw .help
  | .version => throw .version
  | option => r.note option ""

/-- Reads an option with a value, which is attached or follows. -/
def valued (r : Reading) (option : OptionName) (attached : Option String) :
    Except Misuse Reading := do
  let r ← r.settle
  match attached with
  | some value => r.note option value
  | none => pure { r with pending := some (option, none) }

def long (r : Reading) (level : Level) (argument : List Char) : Except Misuse Reading :=
  let (name, attached) := match Text.cut? ['='] argument with
    | some (name, value) => (name, some (String.ofList value))
    | none => (argument, none)
  match level.long? (String.ofList name) with
  | none => .error .unknownArgument
  | some option =>
    if option.takesValue then r.valued option attached
    else if attached.isSome then .error .tooManyValues
    else r.flag option

/-- The value directly after a letter, without an equality sign before it. -/
def attachedValue : List Char → Option String
  | [] => none
  | '=' :: value => some (String.ofList value)
  | value => some (String.ofList value)

def letters (r : Reading) (level : Level) : List Char → Except Misuse Reading
  | [] => .ok r
  | c :: rest =>
    match level.letter? c with
    | none => .error .unknownArgument
    | some option =>
      if option.takesValue then r.valued option (attachedValue rest)
      else match r.flag option with
        | .ok r => letters r level rest
        | .error e => .error e

/-- What is wrong with an argument that is neither an option nor the value of one. -/
def stray (r : Reading) (level : Level) (argument : String) : Misuse :=
  if level.isGroup && !(r.escaped && level.knows argument) then .invalidSubcommand
  else .unknownArgument

def argument (r : Reading) (level : Level) (argument : String) : Except Misuse Reading :=
  if r.escaped then .error (r.stray level argument)
  else match argument.toList with
    | ['-', '-'] => .ok { r with escaped := true }
    | '-' :: '-' :: name => r.long level name
    | '-' :: c :: rest => r.letters level (c :: rest)
    | _ =>
      match r.pending with
      | some (option, none) => .ok { r with pending := some (option, some argument) }
      | _ => .error (r.stray level argument)

/-- The end of the arguments of a command. -/
def finish (r : Reading) (level : Level) : Except Misuse Given := do
  let r ← r.settle
  if level.isGroup then throw (if r.given.isEmpty then .helpForNothing else .missingSubcommand)
  else if level.required.all r.has then pure r.given
  else throw .missingOption

end Reading

/-- What comes of asking for the explanation of a command. -/
def explain (level : Level) : List String → Misuse
  | [] => .help
  | name :: rest =>
    match level.subcommand? name with
    | some below => explain below rest
    | none =>
      if level.knows name && rest.isEmpty then .help else .invalidSubcommand

/--
A command with its options. The flag tells whether a command on the way was given the verbose
flag.
-/
structure Selected where
  level : Level
  given : Given
  verbose : Bool
deriving DecidableEq, Repr

def select (level : Level) (r : Reading) (verbose : Bool) : List String → Except Misuse Selected
  | [] => do
    let given ← r.finish level
    pure ⟨level, given, verbose || given.any fun g => g.1 == .verbose⟩
  | argument :: rest =>
    let below := if r.escaped || r.isWaiting then none else level.subcommand? argument
    match below with
    | some below => select below .start (verbose || r.has .verbose) rest
    | none =>
      if level.knows argument && !r.escaped then .error (explain level rest)
      else match r.argument level argument with
        | .ok r => select level r verbose rest
        | .error e => .error e

/-- What a command line asks for. -/
inductive Action where
  | run (file : Option String) (workdir event : String) (noCacheStore json : Bool)
  | validate (file : String) (json : Bool)
  | plan (file : Option String) (workdir : String)
  | cacheList (json : Bool)
deriving DecidableEq, Repr

/-- A command line without faults. -/
structure Invocation where
  verbose : Bool
  action : Action
deriving DecidableEq, Repr

namespace Selected

def value? (s : Selected) (option : OptionName) : Option String :=
  (s.given.find? fun g => g.1 == option).map (·.2)

/-- Whether a flag was given. -/
def has (s : Selected) (option : OptionName) : Bool := (s.value? option).isSome

/-- The package root: the current directory unless another one is given. -/
def workdir (s : Selected) : String := (s.value? .workdir).getD "."

def action? (s : Selected) : Option Action :=
  match s.level with
  | .run => some (.run (s.value? .file) s.workdir ((s.value? .event).getD "push")
      (s.has .noCacheStore) (s.has .json))
  | .validate => (s.value? .file).map fun file => .validate file (s.has .json)
  | .plan => some (.plan (s.value? .file) s.workdir)
  | .cacheList => some (.cacheList (s.has .json))
  | .top | .cache => none

end Selected

/-- Reads a command line without the name of the program. -/
def parse (arguments : List String) : Except Misuse Invocation := do
  let selected ← select .top .start false arguments
  match selected.action? with
  | some action => pure ⟨selected.verbose, action⟩
  | none => throw .missingSubcommand

end BuildMatrix.CommandLine
