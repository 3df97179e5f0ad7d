import DocBuild.Toml.Assembly
import DocBuild.Toml.Clock
import DocBuild.Toml.Number

namespace DocBuild.Toml

/-- The number of arrays and inline tables that may enclose a value, and the number of segments of a
    dotted key. -/
def limit : Nat := 79

/-- A dotted key with at most the given number of segments; blanks may surround each of them. -/
def dottedKey : Nat → List Char → Option (List Key × List Char)
  | 0, _ => none
  | more + 1, s => do
    let s := skipBlank s
    let (text, rest) ← keySegment s
    let key : Key := ⟨String.ofList text, ⟨s.length, rest.length⟩⟩
    match skipBlank rest with
    | '.' :: r => do
      let (keys, rest) ← dottedKey more r
      return (key :: keys, rest)
    | r => return ([key], r)

/-- A dotted key, split before its last segment. -/
def keyPath (s : List Char) : Option ((List Key × Key) × List Char) := do
  let (keys, rest) ← dottedKey limit s
  let last ← keys.getLast?
  return ((keys.dropLast, last), rest)

/-- Whether a value that is a number, a date or a time may begin so. -/
def beginsNumber (c : Char) : Bool :=
  c.isDigit || c = '+' || c = '-' || c = 'i' || c = 'n'

/-- A value that holds no other value. -/
def scalar (s : List Char) : Option (Value × List Char) :=
  match s with
  | 't' :: 'r' :: 'u' :: 'e' :: rest => some (.boolean true, rest)
  | 'f' :: 'a' :: 'l' :: 's' :: 'e' :: rest => some (.boolean false, rest)
  | [] => none
  | c :: _ =>
    if c = '"' || c = '\'' then
      (stringLiteral s).map fun (t, rest) => (.string (String.ofList t), rest)
    else if beginsNumber c then
      match dateTime? s with
      | some rest => some (.dateTime, rest)
      | none =>
        match (decimalFloat s <|> specialFloat s) with
        | some (x, rest) => some (.float x, rest)
        | none => (integerLiteral s).map fun (n, rest) => (.integer n, rest)
    else none

/-- Reads with `read` and notes where the text stood. -/
def located {α : Type} (read : List Char → Option (α × List Char)) (s : List Char) :
    Option (Located α × List Char) := do
  let (item, rest) ← read s
  return (⟨some ⟨s.length, rest.length⟩, item⟩, rest)

/-- The rest of an array behind its bracket, one element per unit of fuel. A comma may follow the
    last element. -/
def arrayItems (element : List Char → Option (Node × List Char)) :
    Nat → List Char → Option (List Node × List Char)
  | 0, _ => none
  | fuel + 1, s =>
    match skipVoid s with
    | ']' :: rest => some ([], rest)
    | s => do
      let (item, rest) ← element s
      match skipVoid rest with
      | ',' :: rest => do
        let (items, rest) ← arrayItems element fuel rest
        return (item :: items, rest)
      | ']' :: rest => return ([item], rest)
      | _ => none

/-- An assignment: a key, an equals sign and a value, with blanks around each. -/
def assignment (value : List Char → Option (Node × List Char)) (s : List Char) :
    Option (Assignment × List Char) := do
  let ((path, key), s) ← keyPath s
  match s with
  | '=' :: s => do
    let (node, rest) ← value (skipBlank s)
    return (⟨path, key, node⟩, skipBlank rest)
  | _ => none

/-- The assignments of an inline table up to its closing brace, one per unit of fuel. No comma
    follows the last one. -/
def inlinePairs (value : List Char → Option (Node × List Char)) :
    Nat → List Char → Option (List Assignment × List Char)
  | 0, _ => none
  | fuel + 1, s => do
    let (pair, rest) ← assignment value s
    match rest with
    | ',' :: rest => do
      let (pairs, rest) ← inlinePairs value fuel rest
      return (pair :: pairs, rest)
    | '\x7d' :: rest => return ([pair], rest)
    | _ => none

/-- A value inside at most the given number of further arrays and inline tables. -/
def value : Nat → List Char → Option (Node × List Char)
  | 0, s => located scalar s
  | depth + 1, s =>
    match s with
    | '[' :: r => located (fun _ => do
        let (items, rest) ← arrayItems (value depth) r.length r
        return (.array items, rest)) s
    | '\x7b' :: r => located (fun _ =>
        match skipBlank r with
        | '\x7d' :: rest => some (.table .inline [], rest)
        | inner => do
          let (pairs, rest) ← inlinePairs (value depth) inner.length inner
          return (← inlineTable? pairs, rest)) s
    | _ => located scalar s

/-- One line that says something. -/
inductive Statement where
  | assign (a : Assignment)
  | header (repeated : Bool) (path : List Key) (key : Key) (span : Span)

/-- A header in one or in two pairs of brackets, up to the last one. -/
def header (s : List Char) : Option (Statement × List Char) :=
  match s with
  | '[' :: '[' :: r => do
    let ((path, key), rest) ← keyPath r
    match rest with
    | ']' :: ']' :: rest => return (.header true path key ⟨s.length, rest.length⟩, rest)
    | _ => none
  | '[' :: r => do
    let ((path, key), rest) ← keyPath r
    match rest with
    | ']' :: rest => return (.header false path key ⟨s.length, rest.length⟩, rest)
    | _ => none
  | _ => none

/-- The statements of a document, a line per unit of fuel. -/
def statements : Nat → List Char → Option (List Statement)
  | 0, s => if s = [] then some [] else none
  | fuel + 1, s =>
    match skipBlank s with
    | [] => some []
    | c :: r =>
      if c = '#' || c = '\n' || c = '\r' then do
        statements fuel (← endOfLine? (c :: r))
      else do
        let (statement, rest) ←
          if c = '[' then header (c :: r)
          else (assignment (value limit) (c :: r)).map fun (a, rest) => (.assign a, rest)
        return statement :: (← statements fuel (← endOfLine? rest))

/-- Splits statements into the assignments before the first header and one section per header. -/
def sections : List Statement → List Assignment × List Section
  | [] => ([], [])
  | .assign a :: rest =>
    let (top, more) := sections rest
    (a :: top, more)
  | .header repeated path key span :: rest =>
    let (body, more) := sections rest
    ([], ⟨repeated, path, key, span, body⟩ :: more)

/-- The root table that a text describes, if it is a well-formed document. A byte order mark at the
    start is skipped. -/
def document? (text : List Char) : Option Entries := do
  let s := match text with
    | '\ufeff' :: s => s
    | s => s
  let (top, sections) := sections (← statements s.length s)
  assemble? top sections

end DocBuild.Toml
