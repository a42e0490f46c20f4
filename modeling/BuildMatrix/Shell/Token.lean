import BuildMatrix.Shell.Word

/-!
# Tokens of scripts

A script is cut into words, operators and line ends. Each word keeps the number of its line. A
number directly before a redirection is no word but the number of a stream. The word after the
operator `<<` names the line that ends a document, whose lines come after the current line; the
document takes the place of that word.
-/

namespace BuildMatrix.Shell

inductive Token where
  | word (line : Nat) (word : Word)
  | operator (text : String)
  /-- The stream that the redirection after it is about. -/
  | stream (number : Nat)
  | lineEnd
deriving Repr

/-- The operators, longer ones first. -/
def operators : List String :=
  ["<<-", "<<", "&&", "||", ";;", ">>", ">&", "<&", ">|", ";", "&", "|", "(", ")", "<", ">"]

/-- The operator at the start of a text, and what follows it. -/
def leadingOperator? (s : List Char) : Option (String × List Char) :=
  operators.findSome? fun o => (Text.after? o.toList s).map (o, ·)

def lineEnds (s : List Char) : Nat := s.count '\n'

def beforeRedirection : List Char → Bool
  | '<' :: _ | '>' :: _ => true
  | _ => false

/-- A document that is announced: the line that ends it, and how its lines are read. -/
structure Announced where
  last : List Char
  /-- Whether the lines are taken as they are. -/
  verbatim : Bool
  /-- Whether tabs at the start of the lines are dropped. -/
  withoutTabs : Bool
deriving DecidableEq, Repr

def Announced.ofWord (word : Word) (withoutTabs : Bool) : Announced :=
  let texts := word.map fun
    | .chars text _ => text
    | _ => []
  ⟨texts.flatten, word.any (fun | .chars _ quoted => quoted | _ => false), withoutTabs⟩

/-- Reads at most `fuel` lines of a document; the result is its text and what follows it. -/
def documentWithin (document : Announced) : (fuel : Nat) → List Char → List Char × List Char
  | 0, s => ([], s)
  | _, [] => ([], [])
  | fuel + 1, s =>
    let line := s.takeWhile (· != '\n')
    let line := if document.withoutTabs then line.dropWhile (· == '\t') else line
    let rest := s.dropWhile (· != '\n')
    if line = document.last then ([], rest.drop 1)
    else
      let (lines, after) := documentWithin document fuel (rest.drop 1)
      (line ++ rest.take 1 ++ lines, after)

def readDocuments : List Announced → List Char → List (List Char) × List Char
  | [], s => ([], s)
  | document :: documents, s =>
    let (text, s) := documentWithin document s.length s
    let (texts, s) := readDocuments documents s
    (text :: texts, s)

def documentWord (document : Announced) (text : List Char) : Word :=
  if document.verbatim then [.chars text true]
  else ((readPieces (text.length + 2) .wholeQuoted text).map (·.1)).getD [.chars text true]

/-- The token for a word, or for the number of a stream. -/
def wordToken (line : Nat) (word : Word) (rest : List Char) : Token :=
  match word.plain? with
  | some digits =>
    if !digits.isEmpty && digits.all Char.isDigit && beforeRedirection rest then
      .stream ((String.ofList digits).toNat?.getD 0)
    else .word line word
  | none => .word line word

/--
Cuts a text of at most `fuel` characters into tokens; none if a quote is not closed. The second
part of the result are the texts of the documents that are announced.
-/
def tokensWithin : (fuel : Nat) → (line : Nat) → List Announced → List Char →
    Option (List Token × List (List Char))
  | 0, _, _, s => if s.isEmpty then some ([], []) else none
  | fuel + 1, line, announced, s =>
    let before (token : Token) (r : Option (List Token × List (List Char))) :=
      r.map fun (tokens, texts) => (token :: tokens, texts)
    match s with
    | [] => some ([], [])
    | '\n' :: s => do
      let (texts, rest) := readDocuments announced s
      let read := s.take (s.length - rest.length)
      let (tokens, _) ← tokensWithin fuel (line + 1 + lineEnds read) [] rest
      some (.lineEnd :: tokens, texts)
    | '\\' :: '\n' :: s => tokensWithin fuel (line + 1) announced s
    | '#' :: s => tokensWithin fuel line announced (s.dropWhile (· != '\n'))
    | c :: s =>
      if c = ' ' || c = '\t' then tokensWithin fuel line announced s
      else match leadingOperator? (c :: s) with
        | some (o, rest) =>
          if o = "<<" || o = "<<-" then do
            let s := rest.dropWhile fun c => c = ' ' || c = '\t'
            let (word, rest) ← readPieces (s.length + 2) .bare s
            let document := Announced.ofWord word (o == "<<-")
            let (tokens, texts) ← tokensWithin fuel line (announced ++ [document]) rest
            let text := texts.getD announced.length []
            some (.operator "<<" :: .word line (documentWord document text) :: tokens,
              texts.take announced.length)
          else before (.operator o) (tokensWithin fuel line announced rest)
        | none => do
          let (word, rest) ← readPieces (s.length + 2) .bare (c :: s)
          let read := (c :: s).take (s.length + 1 - rest.length)
          before (wordToken line word rest)
            (tokensWithin fuel (line + lineEnds read) announced rest)

def tokens? (script : List Char) : Option (List Token) :=
  (tokensWithin (script.length + 1) 1 [] script).map (·.1)

end BuildMatrix.Shell
