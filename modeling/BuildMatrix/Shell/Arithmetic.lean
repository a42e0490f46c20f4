import BuildMatrix.Shell.Word

/-!
# Arithmetic

Expressions over integers of 64 bits, with the operators, the precedence and the rounding toward
zero of arithmetic on machine words. A name stands for the number in its variable, and for zero if
there is none; it may also be given a number. What a condition rules out is read but not carried
out.
-/

namespace BuildMatrix.Shell

inductive ArithmeticToken where
  | number (value : Int64)
  | name (text : String)
  | operator (text : String)
deriving DecidableEq, Repr

/-- Why an expression has no value. -/
inductive ArithmeticFault where
  | noOperand
  | noEnd
  | noParenthesis
  | noColon
  | divisionByZero
  | noNumber (value : String)
deriving DecidableEq, Repr

/-- The text shown to the user. -/
def ArithmeticFault.message (expression : String) : ArithmeticFault → String
  | noOperand => s!"arithmetic expression: expecting primary: \"{expression}\""
  | noEnd => s!"arithmetic expression: expecting EOF: \"{expression}\""
  | noParenthesis => s!"arithmetic expression: expecting ')': \"{expression}\""
  | noColon => s!"arithmetic expression: expecting ':': \"{expression}\""
  | divisionByZero => s!"arithmetic expression: division by zero: \"{expression}\""
  | noNumber value => s!"Illegal number: {value}"

namespace Arithmetic

/-- The operators, longer ones first. -/
def operators : List String :=
  ["<<=", ">>=", "<<", ">>", "<=", ">=", "==", "!=", "&&", "||", "+=", "-=", "*=", "/=", "%=",
    "&=", "|=", "^=", "<", ">", "+", "-", "*", "/", "%", "(", ")", "!", "~", "&", "|", "^", "?",
    ":", "="]

/-- The value of a digit in any base up to sixteen. -/
def digitValue (c : Char) : Nat :=
  if c.isDigit then c.toNat - 48
  else if 'a' ≤ c && c ≤ 'f' then c.toNat - 87
  else if 'A' ≤ c && c ≤ 'F' then c.toNat - 55
  else 16

def isDigitIn (base : Nat) (c : Char) : Bool := digitValue c < base

/-- The value of digits in a base, or the greatest number if it is beyond that. -/
def digitsValue (base : Nat) (digits : List Char) : Int64 :=
  let value := digits.foldl (fun n c => n * base + digitValue c) 0
  Int64.ofNat (min value 0x7FFFFFFFFFFFFFFF)

/-- The base of a number, and its digits: octal after a zero, hexadecimal after `0x`. -/
def baseOf : List Char → Nat × List Char
  | '0' :: 'x' :: c :: s | '0' :: 'X' :: c :: s =>
    if isDigitIn 16 c then (16, c :: s) else (8, '0' :: 'x' :: c :: s)
  | '0' :: s => (8, '0' :: s)
  | s => (10, s)

/-- The number at the start of a text, and what follows it. -/
def leadingNumber (s : List Char) : Int64 × List Char :=
  let (base, digits) := baseOf s
  (digitsValue base (digits.takeWhile (isDigitIn base)), digits.dropWhile (isDigitIn base))

def number? (s : List Char) : Option Int64 :=
  match s with
  | [] => none
  | c :: _ =>
    let (value, rest) := leadingNumber s
    if c.isDigit && rest.isEmpty then some value else none

/-- A number without a sign between blanks, as `read?` reads it, after its sign, if there is one. -/
def signed? (read? : List Char → Option Int64) (text : List Char) : Option Int64 :=
  let isBlank := fun c => c == ' ' || c == '\t' || c == '\n'
  let s := ((text.dropWhile isBlank).reverse.dropWhile isBlank).reverse
  match s with
  | '-' :: digits => (read? digits).map fun n => -n
  | '+' :: digits => read? digits
  | digits => read? digits

/-- The number in a text with blanks around it and possibly a sign. -/
def numberOf? (text : List Char) : Option Int64 := signed? number? text

/-- The number in a text in which zeros at the start have no meaning. -/
def decimalOf? (text : List Char) : Option Int64 :=
  signed? (fun s =>
    if !s.isEmpty && s.all Char.isDigit then some (digitsValue 10 s) else none) text

/-- Cuts an expression of at most `fuel` characters into tokens. -/
def tokensWithin : (fuel : Nat) → List Char → Option (List ArithmeticToken)
  | 0, s => if s.isEmpty then some [] else none
  | fuel + 1, s =>
    match s with
    | [] => some []
    | c :: rest =>
      if c = ' ' || c = '\t' || c = '\n' then tokensWithin fuel rest
      else if c.isDigit then
        let (value, rest) := leadingNumber (c :: rest)
        (tokensWithin fuel rest).map (.number value :: ·)
      else if startsName c then
        (tokensWithin fuel (rest.dropWhile continuesName)).map
          (.name (String.ofList (c :: rest.takeWhile continuesName)) :: ·)
      else do
        let (o, rest) ← operators.findSome? fun o => (Text.after? o.toList s).map (o, ·)
        (tokensWithin fuel rest).map (.operator o :: ·)

/-- How tightly a binary operator binds; zero for other operators. -/
def precedence : String → Nat
  | "||" => 1
  | "&&" => 2
  | "|" => 3
  | "^" => 4
  | "&" => 5
  | "==" | "!=" => 6
  | "<" | ">" | "<=" | ">=" => 7
  | "<<" | ">>" => 8
  | "+" | "-" => 9
  | "*" | "/" | "%" => 10
  | _ => 0

/-- One for true and zero for false. -/
def truth (b : Bool) : Int64 := if b then 1 else 0

/-- The result of a binary operator; none for a division by zero. -/
def result? (operator : String) (a b : Int64) : Option Int64 :=
  match operator with
  | "||" => some (truth (a != 0 || b != 0))
  | "&&" => some (truth (a != 0 && b != 0))
  | "|" => some (a ||| b)
  | "^" => some (a ^^^ b)
  | "&" => some (a &&& b)
  | "==" => some (truth (a == b))
  | "!=" => some (truth (a != b))
  | "<" => some (truth (decide (a < b)))
  | ">" => some (truth (decide (b < a)))
  | "<=" => some (truth (decide (a ≤ b)))
  | ">=" => some (truth (decide (b ≤ a)))
  | "<<" => some (a <<< b)
  | ">>" => some (a >>> b)
  | "+" => some (a + b)
  | "-" => some (a - b)
  | "*" => some (a * b)
  | "/" => if b = 0 then none else some (a / b)
  | "%" => if b = 0 then none else some (a % b)
  | _ => none

/-- What an operator that gives a value to a variable does with the old value and the new one. -/
def updater? (operator : String) : Option (Option String) :=
  if operator = "=" then some none
  else if ["==", "!=", "<=", ">="].contains operator then none
  else match operator.toList.reverse with
    | '=' :: rest => some (some (String.ofList rest.reverse))
    | _ => none

/-- The values of variables, the last one first. -/
abbrev Assigned := List (String × Int64)

/-- An evaluation, which reads tokens and gives values to variables. -/
abbrev Evaluation := StateT (List ArithmeticToken × Assigned) (Except ArithmeticFault)

/-- The value of a variable. -/
def lookUp (textOf? : String → Option String) (name : String) : Evaluation Int64 := do
  match (← get).2.find? fun v => v.1 == name with
  | some (_, value) => pure value
  | none =>
    match textOf? name with
    | none => pure 0
    | some text =>
      if text.isEmpty then pure 0
      else match numberOf? text.toList with
        | some value => pure value
        | none => throw (.noNumber text)

/-- The result of a binary operator, zero if it is not carried out. -/
def apply (isLive : Bool) (operator : String) (a b : Int64) : Evaluation Int64 := do
  if isLive then
    match result? operator a b with
    | some value => pure value
    | none => throw .divisionByZero
  else pure 0

/-- Passes over tokens. -/
def pass (count : Nat) : Evaluation Unit :=
  modify fun (tokens, values) => (tokens.drop count, values)

mutual

def operand (textOf? : String → Option String) (isLive : Bool) (fuel : Nat) :
    Evaluation Int64 := do
  match fuel with
  | 0 => throw .noOperand
  | fuel + 1 =>
    match (← get).1 with
    | .number n :: _ =>
      pass 1
      pure n
    | .name name :: _ =>
      pass 1
      if isLive then lookUp textOf? name else pure 0
    | .operator "(" :: _ =>
      pass 1
      let value ← assignment textOf? isLive fuel
      match (← get).1 with
      | .operator ")" :: _ =>
        pass 1
        pure value
      | _ => throw .noParenthesis
    | .operator "-" :: _ =>
      pass 1
      pure (-(← operand textOf? isLive fuel))
    | .operator "+" :: _ =>
      pass 1
      operand textOf? isLive fuel
    | .operator "!" :: _ =>
      pass 1
      pure (truth ((← operand textOf? isLive fuel) == 0))
    | .operator "~" :: _ =>
      pass 1
      pure (~~~(← operand textOf? isLive fuel))
    | _ => throw .noOperand

/-- Evaluates the operators after a left side that bind at least as tightly as `level`. -/
def operations (textOf? : String → Option String) (isLive : Bool) (fuel level : Nat)
    (left : Int64) : Evaluation Int64 := do
  match fuel with
  | 0 => throw .noOperand
  | fuel + 1 =>
    match (← get).1 with
    | .operator o :: _ =>
      let p := precedence o
      if p = 0 || p < level then pure left
      else
        pass 1
        let isRightLive := isLive && !(o == "&&" && left == 0) && !(o == "||" && left != 0)
        let right ← operand textOf? isRightLive fuel
        let right ← operations textOf? isRightLive fuel (p + 1) right
        operations textOf? isLive fuel level (← apply isLive o left right)
    | _ => pure left

/-- Evaluates an expression with a choice between two values at the outside. -/
def choice (textOf? : String → Option String) (isLive : Bool) (fuel : Nat) :
    Evaluation Int64 := do
  match fuel with
  | 0 => throw .noOperand
  | fuel + 1 =>
    let value ← operations textOf? isLive fuel 1 (← operand textOf? isLive fuel)
    match (← get).1 with
    | .operator "?" :: _ =>
      pass 1
      let yes ← assignment textOf? (isLive && value != 0) fuel
      match (← get).1 with
      | .operator ":" :: _ =>
        pass 1
        let no ← choice textOf? (isLive && value == 0) fuel
        pure (if value != 0 then yes else no)
      | _ => throw .noColon
    | _ => pure value

/-- Evaluates an expression that may give its value to a variable. -/
def assignment (textOf? : String → Option String) (isLive : Bool) (fuel : Nat) :
    Evaluation Int64 := do
  match fuel with
  | 0 => throw .noOperand
  | fuel + 1 =>
    match (← get).1 with
    | .name name :: .operator o :: _ =>
      match updater? o with
      | none => choice textOf? isLive fuel
      | some updater =>
        pass 2
        let right ← assignment textOf? isLive fuel
        let value ← match updater with
          | none => pure right
          | some o => apply isLive o (← if isLive then lookUp textOf? name else pure 0) right
        if isLive then modify fun (tokens, values) => (tokens, (name, value) :: values)
        pure value
    | _ => choice textOf? isLive fuel

end

/-- The value of an expression, and the values that it gives to variables in order. -/
def evaluate (textOf? : String → Option String) (expression : List Char) :
    Except ArithmeticFault (Int64 × Assigned) :=
  match tokensWithin (expression.length + 1) expression with
  | none => .error .noOperand
  | some tokens =>
    match (assignment textOf? true (4 * tokens.length + 4)).run (tokens, []) with
    | .ok (value, [], assigned) => .ok (value, assigned.reverse)
    | .ok _ => .error .noEnd
    | .error fault => .error fault

end Arithmetic

end BuildMatrix.Shell
