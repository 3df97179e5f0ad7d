import DocBuild.Shell.Printf

namespace DocBuild.Shell

def integerText (n : Int) : Word :=
  (if n < 0 then ['-'] else []) ++ Nat.toDigits 10 n.natAbs

inductive Expression where
  | number (n : Int64)
  | name (w : Word)
  | unary (op : Char) (e : Expression)
  | binary (op : String) (a b : Expression)
  | choice (test yes no : Expression)
  /-- Sets a variable, to the value combined with its old one when there is an operator. -/
  | assign (w : Word) (op : Option String) (e : Expression)

/-- The signs, numbers and names of an expression. -/
inductive Lexeme where
  | number (n : Int64)
  | name (w : Word)
  | sign (s : String)
  deriving DecidableEq

namespace Expression

/-- The operators of two operands, each with its precedence. -/
def operators : List (String × Nat) :=
  [("||", 1), ("&&", 2), ("|", 3), ("^", 4), ("&", 5), ("==", 6), ("!=", 6), ("<=", 7), (">=", 7),
    ("<", 7), (">", 7), ("<<", 8), (">>", 8), ("+", 9), ("-", 9), ("*", 10), ("/", 10), ("%", 10)]

/-- All signs, longer ones before their beginnings. -/
def signs : List String :=
  ["<<=", ">>=", "||", "&&", "==", "!=", "<=", ">=", "<<", ">>", "+=", "-=", "*=", "/=", "%=", "|=",
    "&=", "^=", "|", "^", "&", "<", ">", "+", "-", "*", "/", "%", "(", ")", "!", "~", "=", "?", ":"]

/-- Splits a text into lexemes; one lexeme per unit of fuel. -/
def lexemes : Nat → Word → Option (List Lexeme)
  | 0, _ => none
  | _ + 1, [] => some []
  | fuel + 1, c :: s =>
    if c = ' ' || c = '\t' || c = '\n' then lexemes fuel s
    else if isNameChar c then do
      let w := (c :: s).takeWhile isNameChar
      let more ← lexemes fuel ((c :: s).drop w.length)
      if c.isDigit then
        let (n, complete) := integerArgument w
        if complete then return .number (Int64.ofInt n) :: more else none
      else return .name w :: more
    else do
      let op ← signs.find? fun op => op.toList.isPrefixOf (c :: s)
      return .sign op :: (← lexemes fuel ((c :: s).drop op.length))

/-- The operator that an assignment sign combines with. -/
def assigning? (s : String) : Option (Option String) :=
  if s = "=" then some none
  else if s.endsWith "=" && (operators.lookup s).isNone then some (some (s.dropEnd 1).toString)
  else none

mutual

/-- An expression whose operators bind at least as closely as `least`. -/
def reading : Nat → Nat → List Lexeme → Option (Expression × List Lexeme)
  | 0, _, _ => none
  | fuel + 1, least, ls => do
    let (e, rest) ← operand fuel ls
    extended fuel least e rest

/-- An operand: a number, a variable, an assignment, or an expression under a sign or in
    parentheses. -/
def operand : Nat → List Lexeme → Option (Expression × List Lexeme)
  | 0, _ => none
  | fuel + 1, ls =>
    match ls with
    | .number n :: rest => some (number n, rest)
    | .name w :: .sign s :: rest =>
      match assigning? s with
      | some op => do
        let (e, rest) ← reading fuel 0 rest
        return (assign w op e, rest)
      | none => some (name w, .sign s :: rest)
    | .name w :: rest => some (name w, rest)
    | .sign "(" :: rest => do
      let (e, rest) ← reading fuel 0 rest
      match rest with
      | .sign ")" :: rest => return (e, rest)
      | _ => none
    | .sign s :: rest =>
      if s = "-" || s = "+" || s = "!" || s = "~" then do
        let (e, rest) ← operand fuel rest
        return (unary (s.toList.headD ' ') e, rest)
      else none
    | [] => none

/-- Takes the operators behind a first operand, from the left. -/
def extended : Nat → Nat → Expression → List Lexeme → Option (Expression × List Lexeme)
  | 0, _, _, _ => none
  | fuel + 1, least, e, ls =>
    match ls with
    | .sign "?" :: rest =>
      if least = 0 then do
        let (yes, rest) ← reading fuel 0 rest
        match rest with
        | .sign ":" :: rest => do
          let (no, rest) ← reading fuel 0 rest
          return (choice e yes no, rest)
        | _ => none
      else some (e, ls)
    | .sign s :: rest =>
      match operators.lookup s with
      | some precedence =>
        if least ≤ precedence then do
          let (b, rest) ← reading fuel (precedence + 1) rest
          extended fuel least (binary s e b) rest
        else some (e, ls)
      | none => some (e, ls)
    | _ => some (e, ls)
end

/-- The expression that a text writes; an empty text writes zero. -/
def ofText? (w : Word) : Option Expression := do
  match ← lexemes (w.length + 1) w with
  | [] => return number 0
  | ls =>
    match ← reading (4 * ls.length + 4) 0 ls with
    | (e, []) => return e
    | _ => none

inductive Fault where
  | divisionByZero
  | notANumber (w : Word)

/-- The variables of a shell and what is assigned to them. -/
abbrev Evaluation := StateT (List (Word × Word)) (Except Fault)

/-- Comparisons count as one or zero. -/
def truth (b : Bool) : Int64 := if b then 1 else 0

/-- The value of a binary operator; it wraps at 64 bits, and only a division by zero has none. -/
def combine (op : String) (a b : Int64) : Evaluation Int64 :=
  match op with
  | "*" => return a * b
  | "/" => if b = 0 then throw .divisionByZero else return a / b
  | "%" => if b = 0 then throw .divisionByZero else return a % b
  | "+" => return a + b
  | "-" => return a - b
  | "<<" => return a <<< b
  | ">>" => return a >>> b
  | "<" => return truth (a < b)
  | ">" => return truth (b < a)
  | "<=" => return truth (a ≤ b)
  | ">=" => return truth (b ≤ a)
  | "==" => return truth (a = b)
  | "!=" => return truth (a ≠ b)
  | "&" => return a &&& b
  | "^" => return a ^^^ b
  | _ => return a ||| b

/-- The value of a variable, zero when it is unset or empty. -/
def valueOf (w : Word) : Evaluation Int64 := do
  match (← get).lookup w with
  | none | some [] => return 0
  | some text =>
    let (n, complete) := integerArgument text
    if complete then return Int64.ofInt n else throw (.notANumber text)

/-- The value of an expression. Operands that do not matter are not looked at. -/
def value : Expression → Evaluation Int64
  | number n => return n
  | name w => valueOf w
  | unary op e => do
    let n ← e.value
    return if op = '-' then -n else if op = '!' then truth (n = 0) else if op = '~' then ~~~n else n
  | binary "&&" a b => do
    if (← a.value) = 0 then return 0 else return truth ((← b.value) ≠ 0)
  | binary "||" a b => do
    if (← a.value) ≠ 0 then return 1 else return truth ((← b.value) ≠ 0)
  | binary op a b => do combine op (← a.value) (← b.value)
  | choice test yes no => do
    if (← test.value) ≠ 0 then yes.value else no.value
  | assign w op e => do
    let n ← match op with
      | none => e.value
      | some op => do combine op (← valueOf w) (← e.value)
    modify fun vs => (w, integerText n.toInt) :: vs.filter (·.1 ≠ w)
    return n

end Expression
end DocBuild.Shell
