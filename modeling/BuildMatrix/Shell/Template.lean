import BuildMatrix.Shell.Arithmetic

/-!
# Templates

Two commands write their arguments: one as they are, apart from escapes, and one by a template
whose directives take the arguments in order. A template is used again as long as arguments are
left, and an argument that is missing is empty, or zero.
-/

namespace BuildMatrix.Shell

def octalDigit? (c : Char) : Option Nat := if '0' ≤ c && c ≤ '7' then some (c.toNat - 48) else none

/-- The value of at most `count` octal digits after a value, and what follows them. -/
def octal : (count value : Nat) → List Char → Nat × List Char
  | 0, value, s => (value, s)
  | _, value, [] => (value, [])
  | count + 1, value, c :: s =>
    match octalDigit? c with
    | some digit => octal count (8 * value + digit) s
    | none => (value, c :: s)

def byteChar (value : Nat) : Char := Char.ofNat (value % 256)

/-- The characters that a letter after a backslash stands for. -/
def escapeLetters : List (Char × Char) :=
  [('\\', '\\'), ('"', '"'), ('a', '\x07'), ('b', '\x08'), ('e', '\x1b'), ('f', '\x0c'),
    ('n', '\n'), ('r', '\r'), ('t', '\t'), ('v', '\x0b')]

/-- The character that follows a backslash with its meaning, and what follows it. -/
def escape (s : List Char) : Char × List Char :=
  match s with
  | [] => ('\\', [])
  | c :: rest =>
    if (octalDigit? c).isSome then
      let (value, rest) := octal 3 0 s
      (byteChar value, rest)
    else match escapeLetters.find? fun e => e.1 == c with
      | some (_, meaning) => (meaning, rest)
      | none => ('\\', s)

/-- A text that is written, and whether nothing may be written after it. -/
structure Written where
  text : List Char
  stops : Bool
deriving DecidableEq, Repr

/-- Writes an argument with its escapes, at most `fuel` characters of it. -/
def unescapeWithin : (fuel : Nat) → List Char → Written
  | 0, s => ⟨s, false⟩
  | _, [] => ⟨[], false⟩
  | fuel + 1, '\\' :: s =>
    match s with
    | 'c' :: _ => ⟨[], true⟩
    | '0' :: rest =>
      let (value, rest) := octal 3 0 rest
      let after := unescapeWithin fuel rest
      ⟨byteChar value :: after.text, after.stops⟩
    | s =>
      let (c, rest) := escape s
      let after := unescapeWithin fuel rest
      ⟨c :: after.text, after.stops⟩
  | fuel + 1, c :: s =>
    let after := unescapeWithin fuel s
    ⟨c :: after.text, after.stops⟩

def unescape (s : List Char) : Written := unescapeWithin s.length s

/-- What `echo` writes. -/
def echoText (arguments : List String) : List Char :=
  let (arguments, ending) := match arguments with
    | "-n" :: rest => (rest, [])
    | arguments => (arguments, ['\n'])
  let written := unescape (Text.joinWith " " arguments).toList
  if written.stops then written.text else written.text ++ ending

structure Directive where
  leftAligned : Bool
  zeroPadded : Bool
  signed : Bool
  width : Nat
  precision : Option Nat
  letter : Char
deriving DecidableEq, Repr

/-- Reads a directive after its percent sign. -/
def directive? (s : List Char) : Option (Directive × List Char) :=
  let isFlag := fun c => ['#', '-', '+', ' ', '0'].contains c
  let flags := s.takeWhile isFlag
  let s := s.dropWhile isFlag
  let number := fun (digits : List Char) => (String.ofList digits).toNat?.getD 0
  let width := number (s.takeWhile Char.isDigit)
  let s := s.dropWhile Char.isDigit
  let (precision, s) := match s with
    | '.' :: s => (some (number (s.takeWhile Char.isDigit)), s.dropWhile Char.isDigit)
    | s => (none, s)
  match s with
  | [] => none
  | letter :: rest =>
    some (⟨flags.contains '-', flags.contains '0', flags.contains '+', width, precision, letter⟩,
      rest)

namespace Directive

def pad (d : Directive) (text : List Char) : List Char :=
  let blanks := List.replicate (d.width - text.length) ' '
  if d.leftAligned then text ++ blanks else blanks ++ text

def padNumber (d : Directive) (sign digits : List Char) : List Char :=
  let digits := List.replicate (d.precision.getD 1 - digits.length) '0' ++ digits
  if d.zeroPadded && !d.leftAligned && d.precision.isNone then
    sign ++ List.replicate (d.width - sign.length - digits.length) '0' ++ digits
  else d.pad (sign ++ digits)

def writeNumber (d : Directive) (n : Int64) : List Char :=
  match d.letter with
  | 'o' => d.padNumber [] (Nat.toDigits 8 n.toUInt64.toNat)
  | 'x' => d.padNumber [] (Nat.toDigits 16 n.toUInt64.toNat)
  | 'X' => d.padNumber [] ((Nat.toDigits 16 n.toUInt64.toNat).map Char.toUpper)
  | 'u' => d.padNumber [] (Nat.toDigits 10 n.toUInt64.toNat)
  | _ =>
    let sign := if n.toInt < 0 then ['-'] else if d.signed then ['+'] else []
    d.padNumber sign (Nat.toDigits 10 n.toInt.natAbs)

/-- The number that an argument writes; after a quote, the number of a character. -/
def numberOf? : List Char → Option Int64
  | [] => some 0
  | c :: s =>
    if c = '"' || c = Char.ofNat 39 then some (Int64.ofNat ((s.head?.map Char.toNat).getD 0))
    else Arithmetic.numberOf? (c :: s)

/--
Writes an argument; none for an unknown directive. The flag tells whether the argument is as it
should be.
-/
def write? (d : Directive) (argument : List Char) : Option (Written × Bool) :=
  let text (s : List Char) : List Char :=
    d.pad (match d.precision with
      | some n => s.take n
      | none => s)
  match d.letter with
  | 's' => some (⟨text argument, false⟩, true)
  | 'b' =>
    let written := unescape argument
    some (⟨text written.text, written.stops⟩, true)
  | 'c' => some (⟨d.pad (argument.take 1), false⟩, true)
  | 'd' | 'i' | 'u' | 'o' | 'x' | 'X' =>
    match numberOf? argument with
    | some n => some (⟨d.writeNumber n, false⟩, true)
    | none => some (⟨d.writeNumber 0, false⟩, false)
  | _ => none

end Directive

/-- What a template writes. -/
structure Printed where
  text : List Char
  stops : Bool
  /-- The arguments that are left. -/
  rest : List String
  /-- The arguments that are not as they should be. -/
  faulty : List String
  /-- The directive that nothing is written for, unless it has no letter. -/
  unknown : Option (Option String)
deriving DecidableEq, Repr

/-- Uses at most `fuel` characters of a template once. -/
def printOnce : (fuel : Nat) → List Char → List String → Printed
  | 0, _, arguments | _, [], arguments => ⟨[], false, arguments, [], none⟩
  | fuel + 1, '\\' :: s, arguments =>
    let (c, rest) := escape s
    let after := printOnce fuel rest arguments
    { after with text := c :: after.text }
  | fuel + 1, '%' :: '%' :: s, arguments =>
    let after := printOnce fuel s arguments
    { after with text := '%' :: after.text }
  | fuel + 1, '%' :: s, arguments =>
    match directive? s with
    | none => ⟨[], true, arguments, [], some none⟩
    | some (d, rest) =>
      let argument := arguments.headD ""
      match d.write? argument.toList with
      | none =>
        let text := s.take (s.length - rest.length)
        ⟨[], true, arguments, [], some (some (String.ofList ('%' :: text)))⟩
      | some (written, isSound) =>
        let faulty := if isSound then [] else [argument]
        if written.stops then ⟨written.text, true, arguments.drop 1, faulty, none⟩
        else
          let after := printOnce fuel rest (arguments.drop 1)
          { after with text := written.text ++ after.text, faulty := faulty ++ after.faulty }
  | fuel + 1, c :: s, arguments =>
    let after := printOnce fuel s arguments
    { after with text := c :: after.text }

/-- Uses a template at most `fuel` times. -/
def printWithin (template : List Char) : (fuel : Nat) → List String → Printed
  | 0, arguments => ⟨[], false, arguments, [], none⟩
  | fuel + 1, arguments =>
    let once := printOnce template.length template arguments
    if once.stops || once.rest.isEmpty || once.rest.length = arguments.length then once
    else
      let after := printWithin template fuel once.rest
      { after with text := once.text ++ after.text, faulty := once.faulty ++ after.faulty }

def printed (template : String) (arguments : List String) : Printed :=
  printWithin template.toList (arguments.length + 1) arguments

end BuildMatrix.Shell
