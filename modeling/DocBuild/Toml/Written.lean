namespace DocBuild.Toml

inductive StringForm where
  | basic
  | literal
  | multiBasic
  | multiLiteral
  deriving DecidableEq, Repr

/-- A control character that no form may hold as it is; tabs and line feeds are judged apart. -/
def isControl (c : Char) : Bool :=
  (c.toNat < 0x20 && c ≠ '\t' && c ≠ '\n') || c.toNat = 0x7f

/-- Whether three of `mark` stand in a row. -/
def hasTriple (mark : Char) : List Char → Bool
  | a :: b :: c :: s => (a = mark && b = mark && c = mark) || hasTriple mark (b :: c :: s)
  | _ => false

/-- The form a string is written in. -/
def StringForm.of (s : List Char) : StringForm :=
  let plain := !s.any isControl
  let oneLine := !s.contains '\n'
  let noEscape := !s.contains '\\'
  if plain && oneLine && noEscape && !s.contains '"' then .basic
  else if plain && oneLine && !s.contains '\'' then .literal
  else if plain && noEscape && !hasTriple '"' s then .multiBasic
  else if plain && !hasTriple '\'' s then .multiLiteral
  else if oneLine then .basic
  else .multiBasic

/-- A code point below 256 as `\u` and four capital digits. -/
def codeEscape (c : Char) : List Char :=
  let digit (n : Nat) : Char := Char.ofNat (if n < 10 then n + '0'.toNat else n - 10 + 'A'.toNat)
  ['\\', 'u', '0', '0', digit (c.toNat / 16), digit (c.toNat % 16)]

/-- How a basic string writes a character other than a quotation mark or a line feed. -/
def escapeBasic (c : Char) : List Char :=
  match c with
  | '\x08' => ['\\', 'b']
  | '\t' => ['\\', 't']
  | '\x0c' => ['\\', 'f']
  | '\r' => ['\\', 'r']
  | '\\' => ['\\', '\\']
  | c => if isControl c then codeEscape c else [c]

/-- The body of a string in double quotes. -/
def basicBody : List Char → List Char
  | [] => []
  | '"' :: s => '\\' :: '"' :: basicBody s
  | '\n' :: s => '\\' :: 'n' :: basicBody s
  | c :: s => escapeBasic c ++ basicBody s

/-- In a string of several lines only the third quotation mark of a run is escaped; `run` counts the
    marks since the last character that is none, or the last escaped one. -/
def multiBasicBody (run : Nat) : List Char → List Char
  | [] => []
  | '"' :: s =>
    if run = 2 then '\\' :: '"' :: multiBasicBody 0 s else '"' :: multiBasicBody (run + 1) s
  | '\n' :: s => '\n' :: multiBasicBody 0 s
  | c :: s => escapeBasic c ++ multiBasicBody 0 s

/-- A line break opens a string of several lines when the string itself holds one. -/
def opening (s : List Char) : List Char :=
  if s.contains '\n' then ['\n'] else []

def writeString (s : List Char) : List Char :=
  match StringForm.of s with
  | .basic => '"' :: basicBody s ++ ['"']
  | .literal => '\'' :: s ++ ['\'']
  | .multiBasic => ['"', '"', '"'] ++ opening s ++ multiBasicBody 0 s ++ ['"', '"', '"']
  | .multiLiteral => ['\'', '\'', '\''] ++ opening s ++ s ++ ['\'', '\'', '\'']

/-- An array of strings: on one line while it has at most one element, else a line for each element
    and a comma behind each. -/
def writeStrings : List (List Char) → List Char
  | [] => ['[', ']']
  | [s] => '[' :: writeString s ++ [']']
  | ss =>
    '[' :: '\n' :: ss.flatMap (fun s => "    ".toList ++ writeString s ++ [',', '\n']) ++ [']']

end DocBuild.Toml
