namespace DocBuild.Toml

/-- A character that comments and one-line strings may hold: no control except the tab. -/
def isVisible (c : Char) : Bool :=
  c = '\t' || (0x20 ≤ c.toNat && c.toNat ≠ 0x7f)

/-- Spaces and tabs separate; line ends do not. -/
def isBlank (c : Char) : Bool :=
  c = ' ' || c = '\t'

/-- What follows the blanks at the start. -/
def skipBlank (s : List Char) : List Char :=
  s.dropWhile isBlank

/-- The text behind a line break: a line feed, or a carriage return with one. -/
def newline? : List Char → Option (List Char)
  | '\n' :: s => some s
  | '\r' :: '\n' :: s => some s
  | _ => none

/-- The end of a line: blanks, perhaps a comment, and a line break or the end of the text. -/
def endOfLine? (s : List Char) : Option (List Char) :=
  let s := skipBlank s
  let s := match s with
    | '#' :: r => r.dropWhile isVisible
    | _ => s
  match s with
  | [] => some []
  | _ => newline? s

/-- Blanks, line breaks and comments, as they may stand between the elements of an array. -/
def skipVoid (s : List Char) : List Char :=
  let rec go (comment : Bool) : List Char → List Char
    | [] => []
    | '\n' :: s => go false s
    | '\r' :: s =>
      match s with
      | '\n' :: s => go false s
      | _ => '\r' :: s
    | '#' :: s => go true s
    | c :: s => if isBlank c || (comment && isVisible c) then go comment s else c :: s
  go false s

/-- The value of a hexadecimal digit of either case. -/
def hexDigit? (c : Char) : Option Nat :=
  if c.isDigit then some (c.toNat - '0'.toNat)
  else if 'a' ≤ c ∧ c ≤ 'f' then some (c.toNat - 'a'.toNat + 10)
  else if 'A' ≤ c ∧ c ≤ 'F' then some (c.toNat - 'A'.toNat + 10)
  else none

/-- The character with the code point that the digits write; surrogates are no characters. -/
def codePoint? (digits : List Char) : Option Char := do
  let n ← digits.foldlM (fun n d => return n * 16 + (← hexDigit? d)) 0
  if n.isValidChar then some (Char.ofNat n) else none

/-- The escapes of one letter. -/
def shortEscape? : Char → Option Char
  | 'b' => some '\x08'
  | 't' => some '\t'
  | 'n' => some '\n'
  | 'f' => some '\x0c'
  | 'r' => some '\r'
  | '"' => some '"'
  | '\\' => some '\\'
  | _ => none

/-- Puts a character before the text that is read next. -/
def prepend (c : Char) (next : Option (List Char × List Char)) : Option (List Char × List Char) :=
  next.map fun (text, rest) => (c :: text, rest)

/-- The rest of a `"` string behind its opening mark. -/
def basic : List Char → Option (List Char × List Char)
  | [] => none
  | '"' :: s => some ([], s)
  | '\\' :: 'u' :: a :: b :: c :: d :: s => do
    let ch ← codePoint? [a, b, c, d]
    prepend ch (basic s)
  | '\\' :: 'U' :: a :: b :: c :: d :: e :: f :: g :: h :: s => do
    let ch ← codePoint? [a, b, c, d, e, f, g, h]
    prepend ch (basic s)
  | '\\' :: e :: s => do
    let ch ← shortEscape? e
    prepend ch (basic s)
  | c :: s => if isVisible c && c ≠ '\\' then prepend c (basic s) else none

/-- The rest of a `'` string behind its opening mark. -/
def literal : List Char → Option (List Char × List Char)
  | [] => none
  | '\'' :: s => some ([], s)
  | c :: s => if isVisible c then prepend c (literal s) else none

/-- A run of at least three marks ends a string of several lines; of a longer run, the first one or
    two still belong to the string. -/
def closing? (mark : Char) (s : List Char) : Option (List Char × List Char) :=
  let run := (s.takeWhile (· = mark)).length
  if run < 3 then none
  else
    let inner := min (run - 3) 2
    some (List.replicate inner mark, s.drop (inner + 3))

/-- Whether a backslash before `s` swallows the line break and the blank matter behind it. -/
def endsLine (s : List Char) : Bool :=
  (newline? (skipBlank s)).isSome

/-- The rest of a `"""` string behind its opening marks and a first line break. While `swallow` is
    set, blanks and line breaks are dropped. -/
def multiBasic (swallow : Bool) : List Char → Option (List Char × List Char)
  | [] => none
  | '\n' :: s =>
    if swallow then multiBasic true s else prepend '\n' (multiBasic false s)
  | '\r' :: '\n' :: s =>
    if swallow then multiBasic true s else prepend '\n' (multiBasic false s)
  | '"' :: s =>
    match closing? '"' ('"' :: s) with
    | some (quotes, rest) => some (quotes, rest)
    | none => prepend '"' (multiBasic false s)
  | '\\' :: 'u' :: a :: b :: c :: d :: s => do
    let ch ← codePoint? [a, b, c, d]
    prepend ch (multiBasic false s)
  | '\\' :: 'U' :: a :: b :: c :: d :: e :: f :: g :: h :: s => do
    let ch ← codePoint? [a, b, c, d, e, f, g, h]
    prepend ch (multiBasic false s)
  | '\\' :: e :: s =>
    if endsLine (e :: s) then multiBasic true s
    else do
      let ch ← shortEscape? e
      prepend ch (multiBasic false s)
  | c :: s =>
    if swallow && isBlank c then multiBasic true s
    else if isVisible c && c ≠ '\\' then prepend c (multiBasic false s)
    else none

/-- The rest of a `'''` string behind its opening marks and a first line break. -/
def multiLiteral : List Char → Option (List Char × List Char)
  | [] => none
  | '\r' :: '\n' :: s => prepend '\n' (multiLiteral s)
  | '\'' :: s =>
    match closing? '\'' ('\'' :: s) with
    | some (quotes, rest) => some (quotes, rest)
    | none => prepend '\'' (multiLiteral s)
  | c :: s =>
    if isVisible c || c = '\n' then prepend c (multiLiteral s) else none

/-- The text without a line break at its start. -/
def dropNewline (s : List Char) : List Char :=
  (newline? s).getD s

/-- A string in any of the four forms. -/
def stringLiteral : List Char → Option (List Char × List Char)
  | '"' :: '"' :: '"' :: s => multiBasic false (dropNewline s)
  | '"' :: s => basic s
  | '\'' :: '\'' :: '\'' :: s => multiLiteral (dropNewline s)
  | '\'' :: s => literal s
  | _ => none

/-- A letter, digit, underscore or hyphen, of ASCII only. -/
def isBareKeyChar (c : Char) : Bool :=
  c.isAlphanum || c = '_' || c = '-'

/-- One segment of a key: a string of one line, or bare characters. -/
def keySegment : List Char → Option (List Char × List Char)
  | '"' :: s => basic s
  | '\'' :: s => literal s
  | s =>
    match s.takeWhile isBareKeyChar with
    | [] => none
    | name => some (name, s.dropWhile isBareKeyChar)

end DocBuild.Toml
