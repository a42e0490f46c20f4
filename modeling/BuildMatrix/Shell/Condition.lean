import BuildMatrix.Shell.Arithmetic
import BuildMatrix.Shell.Field

/-!
# Conditions

A condition compares texts or numbers, asks for the kind of a file, or joins other conditions. It
is given as a list of arguments.
-/

namespace BuildMatrix.Shell.Condition

/-- What a condition looks at apart from its arguments. -/
structure Surroundings where
  files : FileSystem
  directory : String

def node? (s : Surroundings) (path : String) : Option Node :=
  s.files.node? (Path.join s.directory (toText path))

def unaryOperators : List String :=
  ["-r", "-w", "-x", "-e", "-f", "-d", "-c", "-b", "-p", "-u", "-g", "-k", "-s", "-t", "-z", "-n",
    "-h", "-O", "-G", "-L", "-S"]

def binaryOperators : List String :=
  ["=", "!=", "<", ">", "-eq", "-ne", "-ge", "-gt", "-le", "-lt", "-nt", "-ot", "-ef"]

/-- Why arguments give no condition. -/
inductive Fault where
  | argumentExpected (operator : String)
  | unexpectedOperator (argument : String)
  | parenthesisExpected
  | illegalNumber (text : String)
  | bracketExpected
deriving DecidableEq, Repr

/-- The text shown to the user. -/
def Fault.message : Fault → String
  | argumentExpected operator => s!"{operator}: argument expected"
  | unexpectedOperator argument =>
    if argument.isEmpty then "unexpected operator" else s!"{argument}: unexpected operator"
  | parenthesisExpected => "closing paren expected"
  | illegalNumber text => s!"Illegal number: {text}"
  | bracketExpected => "missing ]"

def unary (s : Surroundings) (operator argument : String) : Except Fault Bool :=
  let node := if argument.isEmpty then none else node? s argument
  match operator with
  | "-n" => pure !argument.isEmpty
  | "-z" => pure argument.isEmpty
  | "-e" | "-r" | "-w" | "-O" | "-G" => pure node.isSome
  | "-f" => pure (match node with | some (.file ..) => true | _ => false)
  | "-d" => pure (match node with | some (.directory _) => true | _ => false)
  | "-s" =>
    pure (match node with
      | some (.file contents _) => !contents.isEmpty
      | some _ => true
      | none => false)
  | "-x" =>
    pure (match node with
      | some (.file _ executable) => executable
      | some _ => true
      | none => false)
  | "-h" | "-L" =>
    pure (match s.files.lookup false (Path.join s.directory (toText argument)) with
      | .ok (.present _ (.link _)) => true
      | _ => false)
  | "-t" => if (Arithmetic.numberOf? argument.toList).isSome then pure false
    else throw (.illegalNumber argument)
  | _ => pure false

def numberOf (argument : String) : Except Fault Int64 :=
  match Arithmetic.decimalOf? argument.toList with
  | some n => pure n
  | none => throw (.illegalNumber argument)

/-- Whether a condition on two arguments holds. -/
def binary (s : Surroundings) (operator left right : String) : Except Fault Bool :=
  let compare (f : Int64 → Int64 → Bool) : Except Fault Bool := do
    pure (f (← numberOf left) (← numberOf right))
  match operator with
  | "=" => pure (left == right)
  | "!=" => pure (left != right)
  | "<" => pure (decide (left < right))
  | ">" => pure (decide (right < left))
  | "-eq" => compare fun a b => a == b
  | "-ne" => compare fun a b => a != b
  | "-lt" => compare fun a b => decide (a < b)
  | "-le" => compare fun a b => decide (a ≤ b)
  | "-gt" => compare fun a b => decide (b < a)
  | "-ge" => compare fun a b => decide (b ≤ a)
  | "-ef" => pure ((node? s left).isSome && left == right)
  | _ => pure false

/-- What an argument is, given those after it. -/
inductive Role where
  | nothing
  | operand
  | unary (operator : String)
  | binary (operator : String)
  | negation
  | both
  | either
  | opening
  | closing
deriving DecidableEq, Repr

/--
What the first of some arguments is. A condition on one argument is an operand if nothing follows
it, or if a condition on two arguments stands after it with something behind.
-/
def roleOf : List String → Role
  | [] => .nothing
  | argument :: rest =>
    if unaryOperators.contains argument then
      match rest with
      | [] => .operand
      | [_] => .unary argument
      | next :: _ => if binaryOperators.contains next then .operand else .unary argument
    else if binaryOperators.contains argument then .binary argument
    else match argument with
      | "!" => .negation
      | "-a" => .both
      | "-o" => .either
      | "(" => if rest.isEmpty then .operand else .opening
      | ")" => .closing
      | _ => .operand

/-- A truth value and the arguments from the last one that was looked at on. -/
abbrev Found := Except Fault (Bool × List String)

mutual

/-- Conditions of which one must hold; `role` is what the first of the arguments is. -/
def alternatives (s : Surroundings) (fuel : Nat) (role : Role) (arguments : List String) :
    Found := do
  match fuel with
  | 0 => pure (false, arguments)
  | fuel + 1 =>
    let (left, last) ← conjunction s fuel role arguments
    match roleOf (last.drop 1) with
    | .either =>
      let rest := last.drop 2
      let (right, last) ← alternatives s fuel (roleOf rest) rest
      pure (left || right, last)
    | _ => pure (left, last)

/-- Conditions that must hold together. -/
def conjunction (s : Surroundings) (fuel : Nat) (role : Role) (arguments : List String) :
    Found := do
  match fuel with
  | 0 => pure (false, arguments)
  | fuel + 1 =>
    let (left, last) ← negated s fuel role arguments
    match roleOf (last.drop 1) with
    | .both =>
      let rest := last.drop 2
      let (right, last) ← conjunction s fuel (roleOf rest) rest
      pure (left && right, last)
    | _ => pure (left, last)

/-- One condition, possibly negated. -/
def negated (s : Surroundings) (fuel : Nat) (role : Role) (arguments : List String) : Found := do
  match fuel with
  | 0 => pure (false, arguments)
  | fuel + 1 =>
    if role = .negation then
      let role := roleOf (arguments.drop 1)
      let rest := if role = .nothing then arguments else arguments.drop 1
      let (value, last) ← negated s fuel role rest
      pure (!value, last)
    else primary s fuel role arguments

def primary (s : Surroundings) (fuel : Nat) (role : Role) (arguments : List String) : Found := do
  match fuel with
  | 0 => pure (false, arguments)
  | fuel + 1 =>
    match role with
    | .nothing => pure (false, arguments)
    | .opening =>
      let inner := arguments.drop 1
      if roleOf inner = .closing then pure (false, inner)
      else
        let (value, last) ← alternatives s fuel (roleOf inner) inner
        if roleOf (last.drop 1) = .closing then pure (value, last.drop 1)
        else throw .parenthesisExpected
    | .unary operator =>
      match arguments.drop 1 with
      | [] => throw (.argumentExpected operator)
      | argument :: rest => pure (← unary s operator argument, argument :: rest)
    | _ =>
      let first := arguments.headD ""
      match roleOf (arguments.drop 1), arguments.drop 2 with
      | .binary operator, [] => throw (.argumentExpected operator)
      | .binary operator, right :: rest =>
        pure (← binary s operator first right, right :: rest)
      | _, _ => pure (!first.isEmpty, arguments)

end

def decideAs (s : Surroundings) (role : Role) (arguments : List String) : Except Fault Bool := do
  let (value, last) ← alternatives s (4 * arguments.length + 8) role arguments
  match last with
  | argument :: _ :: _ => throw (.unexpectedOperator argument)
  | _ => pure value

/--
Whether the condition that arguments give holds. Three arguments with a condition on two of them in
the middle are that condition; parentheses around three or four arguments are left out, and an
exclamation mark before two or three negates what they give.
-/
def holds (s : Surroundings) (arguments : List String) : Except Fault Bool :=
  match arguments with
  | [] => pure false
  | [_, operator, _] =>
    if binaryOperators.contains operator then decideAs s .operand arguments
    else shortened arguments
  | [_, _, _, _] => shortened arguments
  | _ => decideAs s (roleOf arguments) arguments
where
  shortened (arguments : List String) : Except Fault Bool :=
    if arguments.head? = some "(" && arguments.getLast? = some ")" then
      let inner := (arguments.drop 1).dropLast
      decideAs s (roleOf inner) inner
    else if arguments.head? = some "!" then do
      let inner := arguments.drop 1
      let role := match inner with
        | [_, operator, _] => if binaryOperators.contains operator then .operand else roleOf inner
        | _ => roleOf inner
      pure !(← decideAs s role inner)
    else decideAs s (roleOf arguments) arguments

end BuildMatrix.Shell.Condition
