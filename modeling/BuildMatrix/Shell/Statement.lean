import BuildMatrix.Shell.Token

/-!
# Statements

The statements of a script: commands with their redirections, pipelines, lists and the compound
statements that begin with a reserved word. A word is reserved only where a statement may begin or
go on, and only if nothing in it is quoted.
-/

namespace BuildMatrix.Shell

/-- What is done with a stream. -/
inductive RedirectKind where
  | input
  | output
  | append
  /-- Make it the same as another stream. -/
  | duplicate
  /-- Read from a text. -/
  | document
deriving DecidableEq, Repr

structure Redirect where
  stream : Nat
  kind : RedirectKind
  target : Word
deriving Repr

inductive Statement where
  /-- Values of variables, and the program and its arguments, in the line of its first word. -/
  | simple (line : Nat) (assignments : List (String × Word)) (words : List Word)
      (redirects : List Redirect)
  | redirected (body : Statement) (redirects : List Redirect)
  | pipeline (parts : List Statement)
  | negation (body : Statement)
  | both (left right : Statement)
  | either (left right : Statement)
  | sequence (parts : List Statement)
  | subshell (body : Statement)
  | branch (condition body : Statement) (otherwise : Option Statement)
  /-- Repeats the body while the condition succeeds, or while it fails. -/
  | repetition (whileFails : Bool) (condition body : Statement)
  | each (name : String) (words : Option (List Word)) (body : Statement)
  | choice (subject : Word) (cases : List (List Word × Statement))
  | definition (name : String) (body : Statement)
deriving Repr

inductive ScriptError where
  | unclosedQuote
  | badLoopName
  /-- A token that is in the way, and the one that would have to be there, if there is only one. -/
  | unexpected (token : String) (instead : Option String)
deriving DecidableEq, Repr

/-- The text shown to the user. -/
def ScriptError.message : ScriptError → String
  | .unclosedQuote => "Syntax error: Unterminated quoted string"
  | .badLoopName => "Syntax error: Bad for loop variable"
  | .unexpected token none => s!"Syntax error: {token} unexpected"
  | .unexpected token (some instead) =>
    s!"Syntax error: {token} unexpected (expecting \"{instead}\")"

/-- A failure, with the tokens from the one on that is in the way. -/
structure ScriptFault where
  error : ScriptError
  rest : List Token
deriving Repr

abbrev TokenReader := StateT (List Token) (Except ScriptFault)

/-- The words that begin a statement of several parts. -/
def openingWords : List String := ["\x7b", "if", "while", "until", "for", "case"]

def reservedWords : List String :=
  ["if", "then", "elif", "else", "fi", "while", "until", "do", "done", "for", "in", "case", "esac",
    "\x7b", "\x7d", "!"]

/-- The reserved words that do not begin a statement. -/
def closingWords : List String := ["then", "elif", "else", "fi", "do", "done", "esac", "\x7d"]

namespace TokenReader

/-- How a token that is in the way is named. -/
def nameOf : List Token → String
  | [] => "end of file"
  | .operator o :: _ => "\"" ++ o ++ "\""
  | .word _ w :: _ =>
    let text := String.ofList (w.plain?.getD [])
    if reservedWords.contains text then "\"" ++ text ++ "\"" else "word"
  | .stream _ :: _ => "redirection"
  | .lineEnd :: _ => "newline"

/-- Fails at the token that comes next. -/
def unexpected {α : Type} : TokenReader α := do
  throw ⟨.unexpected (nameOf (← get)) none, ← get⟩

/-- Fails at the token that comes next, where another one has to be. -/
def expecting {α : Type} (text : String) : TokenReader α := do
  throw ⟨.unexpected (nameOf (← get)) (some text), ← get⟩

/-- The reserved word that comes next. -/
def reserved? : TokenReader (Option String) := do
  match ← get with
  | .word _ w :: _ =>
    let text := (w.plain?).map String.ofList
    pure (text.bind fun t => if reservedWords.contains t then some t else none)
  | _ => pure none

def skip : TokenReader Unit := modify (List.drop 1)

/-- Passes over line ends. -/
def skipLines : TokenReader Unit :=
  modify (List.dropWhile fun | .lineEnd => true | _ => false)

/-- Passes over an operator, if it comes next. -/
def operator? (text : String) : TokenReader Bool := do
  match ← get with
  | .operator o :: rest => if o = text then set rest; pure true else pure false
  | _ => pure false

/-- Passes over an operator, which must come next. -/
def operator (text : String) : TokenReader Unit := do
  unless ← operator? text do expecting text

/-- Passes over a reserved word, which must come next. -/
def reserved (word : String) : TokenReader Unit := do
  if (← reserved?) = some word then skip else expecting word

/-- Passes over a word, which must come next. -/
def word : TokenReader Word := do
  match ← get with
  | .word _ w :: rest => set rest; pure w
  | _ => unexpected

/-- Passes over a word that must be a name. -/
def name : TokenReader String := do
  match (← get) with
  | .word _ w :: rest =>
    match w.plain? with
    | some text => if isName text then set rest; pure (String.ofList text) else unexpected
    | none => unexpected
  | _ => unexpected

def loopName : TokenReader String := do
  try name catch _ => throw ⟨.badLoopName, ← get⟩

end TokenReader

/-- The redirection that an operator stands for, with the stream that is meant if none is named. -/
def redirect? : String → Option (Nat × RedirectKind)
  | "<" => some (0, .input)
  | ">" | ">|" => some (1, .output)
  | ">>" => some (1, .append)
  | ">&" => some (1, .duplicate)
  | "<&" => some (0, .duplicate)
  | "<<" => some (0, .document)
  | _ => none

/-- The redirections at the start of tokens, and what follows them. -/
def redirects : List Token → List Redirect × List Token
  | .stream n :: .operator o :: .word line w :: s =>
    match redirect? o with
    | some (_, kind) =>
      let (more, rest) := redirects s
      (⟨n, kind, w⟩ :: more, rest)
    | none => ([], .stream n :: .operator o :: .word line w :: s)
  | .operator o :: .word line w :: s =>
    match redirect? o with
    | some (n, kind) =>
      let (more, rest) := redirects s
      (⟨n, kind, w⟩ :: more, rest)
    | none => ([], .operator o :: .word line w :: s)
  | s => ([], s)

/-- What follows the operator of a redirection at the start of tokens. -/
def incomplete? : List Token → Option (List Token)
  | .stream _ :: .operator o :: rest | .operator o :: rest => (redirect? o).map fun _ => rest
  | _ => none

def readRedirects : TokenReader (List Redirect) := do
  let (found, rest) := redirects (← get)
  set rest
  pure found

/-- An assignment, if a word is one. -/
def assignment? : Word → Option (String × Word)
  | .chars text false :: rest => do
    let (name, value) ← Text.cut? ['='] text
    if isName name then
      some (String.ofList name, if value.isEmpty then rest else .chars value false :: rest)
    else none
  | _ => none

/-- Reads the rest of a simple command of at most `fuel` parts. -/
def readSimple (fuel line : Nat) (assignments : List (String × Word)) (words : List Word)
    (redirects : List Redirect) : TokenReader Statement := do
  let done : Statement := .simple line assignments words redirects
  match fuel with
  | 0 => pure done
  | fuel + 1 =>
    match ← readRedirects with
    | [] =>
      match ← get with
      | .word _ w :: rest =>
        set rest
        match (if words.isEmpty then assignment? w else none) with
        | some a => readSimple fuel line (assignments ++ [a]) words redirects
        | none => readSimple fuel line assignments (words ++ [w]) redirects
      | tokens =>
        if (incomplete? tokens).isSome then
          set ((incomplete? tokens).getD [])
          TokenReader.unexpected
        else if assignments.isEmpty && words.isEmpty && redirects.isEmpty then
          TokenReader.unexpected
        else pure done
    | more => readSimple fuel line assignments words (redirects ++ more)

/-- The words at the start of tokens, and what follows them. -/
def leadingWords : List Token → List Word × List Token
  | .word _ w :: s => let (words, rest) := leadingWords s; (w :: words, rest)
  | s => ([], s)

def readWords : TokenReader (List Word) := do
  let (words, rest) := leadingWords (← get)
  set rest
  pure words

/-- Reads at most `fuel` patterns of a case. -/
def readPatterns : (fuel : Nat) → TokenReader (List Word)
  | 0 => TokenReader.unexpected
  | fuel + 1 => do
    let pattern ← TokenReader.word
    if ← TokenReader.operator? "|" then pure (pattern :: (← readPatterns fuel))
    else
      TokenReader.operator ")"
      pure [pattern]

def currentLine : TokenReader Nat := do
  match ← get with
  | .word line _ :: _ => pure line
  | _ => pure 1

def withRedirects (body : TokenReader Statement) : TokenReader Statement := do
  let body ← body
  match ← readRedirects with
  | [] => pure body
  | found => pure (.redirected body found)

/-- Whether no statement comes next. -/
def atEnd : TokenReader Bool := do
  match ← get with
  | [] => pure true
  | .operator o :: _ => pure (o == ")" || o == ";;")
  | _ => pure ((← TokenReader.reserved?).any closingWords.contains)

/-- Passes over what ends a statement. -/
def separator? : TokenReader Bool := do
  match ← get with
  | .operator ";" :: rest | .operator "&" :: rest | .lineEnd :: rest => set rest; pure true
  | _ => pure false

open TokenReader

mutual

def readStatements (fuel : Nat) : TokenReader (List Statement) := do
  match fuel with
  | 0 => unexpected
  | fuel + 1 =>
    skipLines
    if ← atEnd then pure []
    else
      let first ← readList fuel
      if ← separator? then pure (first :: (← readStatements fuel)) else pure [first]

/-- Reads statements, at least one unless the script ends there. -/
def readBody (fuel : Nat) : TokenReader Statement := do
  match fuel with
  | 0 => unexpected
  | fuel + 1 =>
    let statements ← readStatements fuel
    if statements.isEmpty && !(← get).isEmpty then unexpected
    else pure (.sequence statements)

/-- Reads pipelines joined by `&&` and `||`. -/
def readList (fuel : Nat) : TokenReader Statement := do
  match fuel with
  | 0 => unexpected
  | fuel + 1 => readListAfter fuel (← readPipeline fuel)

def readListAfter (fuel : Nat) (left : Statement) : TokenReader Statement := do
  match fuel with
  | 0 => unexpected
  | fuel + 1 =>
    if ← operator? "&&" then
      skipLines
      readListAfter fuel (.both left (← readPipeline fuel))
    else if ← operator? "||" then
      skipLines
      readListAfter fuel (.either left (← readPipeline fuel))
    else pure left

/-- Reads statements joined by pipes, possibly negated. -/
def readPipeline (fuel : Nat) : TokenReader Statement := do
  match fuel with
  | 0 => unexpected
  | fuel + 1 =>
    if (← reserved?) = some "!" then
      skip
      pure (.negation (← readPipeline fuel))
    else
      let first ← readStatement fuel
      if ← operator? "|" then
        skipLines
        match ← readPipeline fuel with
        | .pipeline more => pure (.pipeline (first :: more))
        | more => pure (.pipeline [first, more])
      else pure first

def readStatement (fuel : Nat) : TokenReader Statement := do
  match fuel with
  | 0 => unexpected
  | fuel + 1 =>
    match ← get with
    | .word _ _ :: .operator "(" :: _ =>
      let defined ← name
      operator "("
      operator ")"
      skipLines
      pure (.definition defined (← readStatement fuel))
    | .operator "(" :: _ =>
      withRedirects do
        skip
        let body ← readBody fuel
        operator ")"
        pure (.subshell body)
    | _ =>
      match ← reserved? with
      | none => readSimple ((← get).length + 1) (← currentLine) [] [] []
      | some word =>
        if openingWords.contains word then
          skip
          withRedirects (readCompound fuel word)
        else unexpected

def readCompound (fuel : Nat) (first : String) : TokenReader Statement := do
  match fuel with
  | 0 => unexpected
  | fuel + 1 =>
    match first with
    | "\x7b" =>
      let body ← readBody fuel
      reserved "\x7d"
      pure body
    | "if" => readBranch fuel
    | "while" => readRepetition fuel false
    | "until" => readRepetition fuel true
    | "for" => readEach fuel
    | _ =>
      let subject ← word
      skipLines
      reserved "in"
      pure (.choice subject (← readCases fuel))

def readBranch (fuel : Nat) : TokenReader Statement := do
  match fuel with
  | 0 => unexpected
  | fuel + 1 =>
    let condition ← readBody fuel
    reserved "then"
    let body ← readBody fuel
    match ← reserved? with
    | some "elif" =>
      skip
      pure (.branch condition body (some (← readBranch fuel)))
    | some "else" =>
      skip
      let otherwise ← readBody fuel
      reserved "fi"
      pure (.branch condition body (some otherwise))
    | _ =>
      reserved "fi"
      pure (.branch condition body none)

def readRepetition (fuel : Nat) (whileFails : Bool) : TokenReader Statement := do
  match fuel with
  | 0 => unexpected
  | fuel + 1 =>
    let condition ← readBody fuel
    reserved "do"
    let body ← readBody fuel
    reserved "done"
    pure (.repetition whileFails condition body)

/-- Reads a repetition over words after its first word. -/
def readEach (fuel : Nat) : TokenReader Statement := do
  match fuel with
  | 0 => unexpected
  | fuel + 1 =>
    let variableName ← loopName
    skipLines
    let mut words := none
    if (← reserved?) = some "in" then
      skip
      words := some (← readWords)
    discard (operator? ";")
    skipLines
    reserved "do"
    let body ← readBody fuel
    reserved "done"
    pure (.each variableName words body)

/-- Reads the cases of a choice and its last word. -/
def readCases (fuel : Nat) : TokenReader (List (List Word × Statement)) := do
  match fuel with
  | 0 => unexpected
  | fuel + 1 =>
    skipLines
    if (← reserved?) = some "esac" then
      skip
      pure []
    else
      discard (operator? "(")
      let patterns ← readPatterns (fuel + 1)
      let body ← readStatements fuel
      if ← operator? ";;" then pure ((patterns, .sequence body) :: (← readCases fuel))
      else
        reserved "esac"
        pure [(patterns, .sequence body)]

end

/-- Reads the statements up to the end of a line. -/
def readStatementLine (fuel : Nat) : TokenReader (List Statement) := do
  match fuel with
  | 0 => unexpected
  | fuel + 1 =>
    let first ← readList fuel
    match ← get with
    | [] => pure [first]
    | .lineEnd :: _ =>
      skip
      pure [first]
    | _ =>
      if ← separator? then
        match ← get with
        | [] => pure [first]
        | .lineEnd :: _ =>
          skip
          pure [first]
        | _ => pure (first :: (← readStatementLine fuel))
      else unexpected

/-- A script: its lines of statements, and the fault after them, with the number of its line. -/
structure Script where
  lines : List Statement
  fault : Option (ScriptError × Nat)
deriving Repr

/-- The line of the first word of some tokens; the last line of the script if there is none. -/
def lineOf (last : Nat) (tokens : List Token) : Nat :=
  (tokens.findSome? fun
    | .word line _ => some line
    | _ => none).getD last

/-- Reads at most `fuel` lines. -/
def readScript (bound last : Nat) : (fuel : Nat) → List Token → Script
  | 0, _ => ⟨[], none⟩
  | fuel + 1, tokens =>
    match tokens with
    | [] => ⟨[], none⟩
    | .lineEnd :: rest => readScript bound last fuel rest
    | tokens =>
      match (readStatementLine bound).run tokens with
      | .ok (statements, rest) =>
        let script := readScript bound last fuel rest
        { script with lines := .sequence statements :: script.lines }
      | .error fault => ⟨[], some (fault.error, lineOf last fault.rest)⟩

def parse (text : List Char) : Script :=
  let last := 1 + lineEnds text
  match tokens? text with
  | none => ⟨[], some (.unclosedQuote, last)⟩
  | some tokens => readScript (8 * tokens.length + 16) last (tokens.length + 1) tokens

end BuildMatrix.Shell
