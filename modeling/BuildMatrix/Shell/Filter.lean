import BuildMatrix.Shell.Pattern
import BuildMatrix.Shell.State

/-!
# Filters

The tools that read a text, from files or from the standard input, and write parts of it, changed
or counted, and the tools that write a text of their own.
-/

namespace BuildMatrix.Shell

/-- Whether the console takes texts in UTF-8. -/
def State.isUtf8 (s : State) : Bool :=
  Text.endsWith "UTF-8".toList (((s.valueOf? "LANG").getD "").toList.map Char.toUpper)

def quotation (text : String) : Run String := do
  if (← get).isUtf8 then pure (ofText "‘" ++ text ++ ofText "’") else pure s!"'{text}'"

/-- Writes a message of a tool that points to its explanation, and sets the status. -/
def failWithHint (tool message : String) : Run Unit :=
  failAs 1 s!"{tool}: {message}\nTry '{tool} --help' for more information."

def errorText (e : FileError) : String :=
  match Text.cut? " (os error".toList e.message.toList with
  | some (text, _) => String.ofList text
  | none => e.message

def operands (arguments : List String) : List String :=
  arguments.filter fun a => a.toList.head? != some '-' || a == "-"

def hasOption (letter : Char) (arguments : List String) : Bool :=
  arguments.any fun a => a.toList.head? = some '-' && a.toList.contains letter

/-- The value of an option with a letter, and the other arguments. -/
def valueOption? (letter : Char) : List String → Option String × List String
  | [] => (none, [])
  | argument :: rest =>
    match argument.toList with
    | ['-', c] =>
      if c = letter then
        match rest with
        | [] => (none, [])
        | value :: rest => (some value, rest)
      else
        let (value, rest) := valueOption? letter rest
        (value, argument :: rest)
    | '-' :: c :: value =>
      if c = letter then (some (String.ofList value), rest)
      else
        let (value, rest) := valueOption? letter rest
        (value, argument :: rest)
    | _ =>
      let (value, rest) := valueOption? letter rest
      (value, argument :: rest)

def takeInput : Run (List Char) := do
  let s ← get
  set { s with machine := { s.machine with input := [] } }
  pure s.machine.input

/-- Reads a file, or the standard input for a dash. -/
def readSource (argument : String) : Run (Except FileError (List Char)) := do
  let s ← get
  let path := s.pathOf argument
  if argument == "-" || path == "/dev/stdin" then return .ok (← takeInput)
  else if path == "/dev/null" then return .ok []
  else if path == "/dev/zero" then throw .endless
  else return (s.machine.files.read path).map charsOfBytes

/-- Reads the files that arguments name, or the standard input, for a tool with a way to fail. -/
def readSources (arguments : List String) (complain : String → FileError → Run Unit) :
    Run (List (String × List Char)) := do
  let mut texts := []
  for argument in (if arguments.isEmpty then ["-"] else arguments) do
    match ← readSource argument with
    | .ok text => texts := texts ++ [(argument, text)]
    | .error e => complain argument e
  pure texts

def linesOf (text : List Char) : List (List Char) :=
  let parts := Text.splitAt '\n' text
  let ended := parts.dropLast.map fun line => line ++ ['\n']
  match parts.getLast? with
  | some [] | none => ended
  | some rest => ended ++ [rest]

/-- Copies files, or the standard input, to the standard output. -/
def cat (arguments : List String) : Run Unit := do
  setStatus 0
  let texts ← readSources arguments fun argument e =>
    failAs 1 s!"cat: {argument}: {errorText e}"
  for (_, text) in texts do
    put text

def failToOpen (tool argument : String) (e : FileError) : Run Unit :=
  if e == .isDirectory then failAs 1 s!"{tool}: error reading '{argument}': {errorText e}"
  else failAs 1 s!"{tool}: cannot open '{argument}' for reading: {errorText e}"

/-- The number of lines that an argument such as `-3` asks for, and the other arguments. -/
def lineCount? (arguments : List String) : Option String × List String :=
  match arguments with
  | first :: rest =>
    match first.toList with
    | '-' :: c :: digits =>
      if c.isDigit then (some (String.ofList (c :: digits)), rest) else valueOption? 'n' arguments
    | _ => valueOption? 'n' arguments
  | [] => (none, [])

/-- Writes the start of texts. -/
def head (arguments : List String) : Run Unit := do
  setStatus 0
  match valueOption? 'c' arguments with
  | (some count, ["/dev/zero"]) =>
    put (List.replicate (count.toNat?.getD 0) (Char.ofNat 0))
  | (some count, sources) =>
    for (_, text) in ← readSources sources (failToOpen "head") do
      put (text.take (count.toNat?.getD 0))
  | (none, _) =>
    let (count, sources) := lineCount? arguments
    for (_, text) in ← readSources sources (failToOpen "head") do
      put ((linesOf text).take ((count.getD "10").toNat?.getD 10)).flatten

/-- Writes the end of texts, or what comes from a place on. -/
def tail (arguments : List String) : Run Unit := do
  setStatus 0
  let part (count : String) (items : List (List Char)) : List Char :=
    match count.toList with
    | '+' :: digits => (items.drop ((String.ofList digits).toNat?.getD 1 - 1)).flatten
    | _ => (items.drop (items.length - count.toNat?.getD 10)).flatten
  match valueOption? 'c' arguments with
  | (some count, sources) =>
    for (_, text) in ← readSources sources (failToOpen "tail") do
      put (part count (text.map fun c => [c]))
  | (none, _) =>
    let (count, sources) := lineCount? arguments
    for (_, text) in ← readSources sources (failToOpen "tail") do
      put (part (count.getD "10") (linesOf text))

def wordCount (text : List Char) : Nat :=
  ((text.map fun c => if c.isWhitespace || c = '\x0b' || c = '\x0c' then ' ' else c).splitBy
    fun a b => (a == ' ') == (b == ' ')).countP fun part => part.head? != some ' '

/-- Counts lines, words and bytes. -/
def wc (arguments : List String) : Run Unit := do
  setStatus 0
  let sources := operands arguments
  let all := !(['l', 'w', 'c'].any fun letter => hasOption letter arguments)
  let counts (text : List Char) : List Nat :=
    (if all || hasOption 'l' arguments then [text.count '\n'] else [])
      ++ (if all || hasOption 'w' arguments then [wordCount text] else [])
      ++ if all || hasOption 'c' arguments then [text.length] else []
  let texts ← readSources sources fun argument e => failAs 1 s!"wc: {argument}: {errorText e}"
  let size := (texts.map fun t => t.2.length).foldl (· + ·) 0
  for (name, text) in texts do
    let counts := counts text
    let width :=
      if counts.length = 1 && texts.length = 1 then 1
      else if sources.isEmpty then 7
      else (toString size).length
    let padded := counts.map fun n =>
      String.ofList (List.replicate (width - (toString n).length) ' ') ++ toString n
    let name := if sources.isEmpty then "" else " " ++ name
    put (Text.joinWith " " padded ++ name ++ "\n").toList

/-- Writes ascending numbers. -/
def seq (arguments : List String) : Run Unit := do
  setStatus 0
  match arguments.find? fun a => a.toInt?.isNone with
  | some argument =>
    failWithHint "seq" ("invalid floating point argument: " ++ (← quotation argument))
  | none =>
    let write (first step last : Int) : Run Unit :=
      if step = 0 then throw .endless
      else
        let count := if step > 0 then (last - first) / step + 1 else (first - last) / (-step) + 1
        for n in List.range count.toNat do
          put (toString (first + step * n) ++ "\n").toList
    match arguments.filterMap String.toInt? with
    | [last] => write 1 1 last
    | [first, last] => write first 1 last
    | [first, step, last] => write first step last
    | _ => failWithHint "seq" "missing operand"

/-- The number of lines that are written for a reader who stops reading at some time. -/
def repeatedLines : Nat := 20000

/-- Writes a line again and again. -/
def yes (arguments : List String) : Run Unit := do
  match (← get).sink 1 with
  | .buffer (_ + 2) =>
    let line := (if arguments.isEmpty then "y" else Text.joinWith " " arguments) ++ "\n"
    put (List.replicate repeatedLines line.toList).flatten
    setStatus 141
  | _ => throw .endless

/-- The characters that a set names: ranges, classes, and letters after a backslash. -/
def characterSet : List Char → List Char
  | [] => []
  | '[' :: ':' :: s =>
    let name := s.takeWhile (· != ':')
    let characters := match String.ofList name with
      | "upper" => (List.range 26).map fun n => Char.ofNat (65 + n)
      | "lower" => (List.range 26).map fun n => Char.ofNat (97 + n)
      | "digit" => (List.range 10).map fun n => Char.ofNat (48 + n)
      | "space" => [' ', '\t', '\n', '\x0b', '\x0c', '\r']
      | _ => []
    characters ++ characterSet ((s.dropWhile (· != ':')).drop 2)
  | '\\' :: 'n' :: s => '\n' :: characterSet s
  | '\\' :: 't' :: s => '\t' :: characterSet s
  | '\\' :: 'r' :: s => '\r' :: characterSet s
  | '\\' :: '0' :: s => Char.ofNat 0 :: characterSet s
  | '\\' :: '\\' :: s => '\\' :: characterSet s
  | a :: '-' :: b :: s =>
    (List.range (b.toNat + 1 - a.toNat)).map (fun n => Char.ofNat (a.toNat + n)) ++ characterSet s
  | c :: s => c :: characterSet s
termination_by s => s.length
decreasing_by
  all_goals
    have hafter : (s.dropWhile (· != ':')).length ≤ s.length := (List.dropWhile_sublist _).length_le
    simp only [List.length_cons, List.length_drop]
    omega

/-- Replaces or removes characters of the standard input. -/
def exchangeCharacters (arguments : List String) : Run Unit := do
  setStatus 0
  match operands arguments with
  | [] => failWithHint "tr" "missing operand"
  | [set] =>
    if hasOption 'd' (arguments.take 1) then
      let set := characterSet set.toList
      put ((← takeInput).filter fun c => !set.contains c)
    else
      let quoted ← quotation set
      failAs 1 (s!"tr: missing operand after {quoted}\n"
        ++ "Two strings must be given when translating.\nTry 'tr --help' for more information.")
  | old :: new :: _ =>
    let old := characterSet old.toList
    let new := characterSet new.toList
    put ((← takeInput).map fun c =>
      match old.idxOf? c with
      | none => c
      | some n => (new[n]?).getD (new.getLastD c))

/-- Writes the lines of texts in order. -/
def sort (arguments : List String) : Run Unit := do
  setStatus 0
  let texts ← readSources (operands arguments) fun argument e =>
    failAs 2 s!"sort: cannot read: {argument}: {errorText e}"
  if (← get).status = 0 then
    let lines := (texts.flatMap fun t => linesOf t.2).map fun line =>
      if line.getLast? = some '\n' then line.dropLast else line
    let number (line : List Char) : Nat :=
      (String.ofList ((line.dropWhile (· == ' ')).takeWhile Char.isDigit)).toNat?.getD 0
    let upTo (a b : List Char) : Bool := !b.lex a fun x y => x.toNat < y.toNat
    let before (a b : List Char) : Bool :=
      if hasOption 'n' arguments then number a < number b || (number a = number b && upTo a b)
      else upTo a b
    let sorted := lines.mergeSort before
    let sorted := if hasOption 'u' arguments then sorted.eraseDups else sorted
    let ordered := if hasOption 'r' arguments then sorted.reverse else sorted
    put (ordered.flatMap fun line => line ++ ['\n'])

/-- Writes the last name of a path, without an ending if one is given. -/
def basename (arguments : List String) : Run Unit := do
  setStatus 0
  match arguments with
  | [] => failWithHint "basename" "missing operand"
  | path :: endings =>
    let trimmed := (path.toList.reverse.dropWhile (· == '/')).reverse
    let name := (trimmed.reverse.takeWhile (· != '/')).reverse
    let ending := (endings.headD "").toList
    let name :=
      if Text.endsWith ending name && name != ending then name.take (name.length - ending.length)
      else name
    put ((if name.isEmpty && !path.isEmpty then ['/'] else name) ++ ['\n'])

/-- Writes a path without its last name. -/
def dirname (arguments : List String) : Run Unit := do
  setStatus 0
  match arguments with
  | [] => failWithHint "dirname" "missing operand"
  | paths =>
    for path in paths do
      let trimmed := path.toList.reverse.dropWhile (· == '/')
      let rest := trimmed.dropWhile (· != '/')
      let above := (rest.dropWhile (· == '/')).reverse
      let above :=
        if !above.isEmpty then above
        else if path.toList.head? = some '/' then ['/'] else ['.']
      put (above ++ ['\n'])

/-- Copies the standard input to the standard output and to files. -/
def tee (arguments : List String) : Run Unit := do
  setStatus 0
  let text ← takeInput
  put text
  for argument in operands arguments do
    let s ← get
    let path := s.pathOf argument
    let old := if hasOption 'a' arguments then (s.machine.files.read path).toOption.getD [] else []
    match s.machine.files.write path (old ++ bytesOfChars text) with
    | .ok files => set { s with machine := { s.machine with files } }
    | .error e => failAs 1 s!"tee: {argument}: {errorText e}"

/-- The lines among which a pattern of `grep` looks. -/
structure Search where
  atStart : Bool
  atEnd : Bool
  pattern : Pattern

namespace Search

/--
The parts of a search: a point stands for any character, and one with an asterisk for any text.
-/
def parts : List Char → Pattern
  | [] => []
  | '\\' :: c :: s => .char c :: parts s
  | '.' :: '*' :: s => .anyText :: parts s
  | '.' :: s => .anyChar :: parts s
  | '[' :: s =>
    let ranges := (s.takeWhile (· != ']')).filter (· != '^')
    .oneOf (s.head? = some '^') (ranges.map fun c => (c, c))
      :: parts ((s.dropWhile (· != ']')).drop 1)
  | c :: s => .char c :: parts s
termination_by s => s.length
decreasing_by
  all_goals
    have hafter : (s.dropWhile (· != ']')).length ≤ s.length := (List.dropWhile_sublist _).length_le
    simp only [List.length_cons, List.length_drop]
    omega

/-- The search that a text describes; with `plain` it stands for itself. -/
def ofText (plain : Bool) (text : List Char) : Search :=
  if plain then ⟨false, false, text.map .char⟩
  else
    let atStart := text.head? = some '^'
    let text := if atStart then text.drop 1 else text
    let atEnd := text.getLast? = some '$'
    ⟨atStart, atEnd, parts (if atEnd then text.dropLast else text)⟩

def finds (search : Search) (line : List Char) : Bool :=
  let before : Pattern := if search.atStart then [] else [.anyText]
  let after : Pattern := if search.atEnd then [] else [.anyText]
  (before ++ search.pattern ++ after).fits line

end Search

/-- Writes the lines that are found. -/
def grep (arguments : List String) : Run Unit := do
  match operands arguments with
  | [] =>
    failAs 2 ("Usage: grep [OPTION]... PATTERNS [FILE]...\n"
      ++ "Try 'grep --help' for more information.")
  | pattern :: sources =>
    setStatus 1
    let search := Search.ofText (hasOption 'F' arguments) pattern.toList
    let texts ← readSources sources fun argument e =>
      failAs 2 s!"grep: {argument}: {errorText e}"
    let mut isFound := false
    for (name, text) in texts do
      let lines := (linesOf text).map fun line =>
        if line.getLast? = some '\n' then line.dropLast else line
      let found := lines.filter fun line => search.finds line != hasOption 'v' arguments
      isFound := isFound || !found.isEmpty
      let label := if sources.length > 1 then name.toList ++ [':'] else []
      if hasOption 'c' arguments then
        put (label ++ (toString found.length).toList ++ ['\n'])
      else unless hasOption 'q' arguments do
        put (found.map fun line => label ++ line ++ ['\n']).flatten
    unless (← get).status = 2 do setTruth isFound

end BuildMatrix.Shell
