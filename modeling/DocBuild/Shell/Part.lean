import DocBuild.Shell.Script

namespace DocBuild.Shell

/-- Characters between the words of a line. -/
def isBlank (c : Char) : Bool := c = ' ' || c = '\t'

/-- Characters that end an unquoted word. -/
def isMeta (c : Char) : Bool :=
  isBlank c || c = '\n' || c = ';' || c = '&' || c = '|' || c = '<' || c = '>' || c = '(' || c = ')'

/-- The parameters whose name is one sign. -/
def isSpecial (c : Char) : Bool :=
  c = '@' || c = '*' || c = '#' || c = '?' || c = '-' || c = '$' || c = '!'

/-- Where a run of parts ends. -/
inductive Stop where
  | word
  | quote
  | brace
  /-- The whole text is one run, in which quotation marks mean nothing. -/
  | never
  deriving DecidableEq

/-- The text up to the parenthesis that closes the current one, quotes and nested pairs skipped. -/
def untilClose : Nat → List Char → Option (Word × List Char)
  | _, [] => none
  | depth, ')' :: s =>
    match depth with
    | 0 => some ([], s)
    | depth + 1 => (untilClose depth s).map fun (w, r) => (')' :: w, r)
  | depth, '(' :: s => (untilClose (depth + 1) s).map fun (w, r) => ('(' :: w, r)
  | depth, '\\' :: c :: s => (untilClose depth s).map fun (w, r) => ('\\' :: c :: w, r)
  | depth, c :: s => (untilClose depth s).map fun (w, r) => (c :: w, r)

/-- The text up to the next backquote; a backslash keeps its meaning except before a backquote. -/
def untilBackquote : List Char → Option (Word × List Char)
  | [] => none
  | '`' :: s => some ([], s)
  | '\\' :: '`' :: s => (untilBackquote s).map fun (w, r) => ('`' :: w, r)
  | c :: s => (untilBackquote s).map fun (w, r) => (c :: w, r)

/-- The parameter name at the start of a text. -/
def parameterName : List Char → Option (Word × List Char)
  | [] => none
  | c :: s =>
    if isNameStart c then some (c :: s.takeWhile isNameChar, s.dropWhile isNameChar)
    else if c.isDigit then some (c :: s.takeWhile Char.isDigit, s.dropWhile Char.isDigit)
    else if isSpecial c then some ([c], s)
    else none

/-- The text inside parentheses that belong together and enclose the whole text. -/
def enclosed? (w : Word) : Option Word :=
  match w with
  | '(' :: s =>
    match untilClose 0 s with
    | some (inner, []) => some inner
    | _ => none
  | _ => none

/-- The parts up to the stop, which stays unread; one character or construct per unit of fuel. -/
def parts (stop : Stop) (quoted : Bool) : Nat → List Char → Option (List Part × List Char)
  | 0, _ => none
  | _ + 1, [] => if stop = .word || stop = .never then some ([], []) else none
  | fuel + 1, c :: s =>
    let also (p : Part) (s : List Char) : Option (List Part × List Char) :=
      (parts stop quoted fuel s).map fun (ps, r) => (p :: ps, r)
    let ends : Bool := (stop = .word && isMeta c) || (stop = .quote && c = '"')
      || (stop = .brace && c = '\x7d')
    if ends then
      some ([], c :: s)
    else if c = '\\' then
      match s with
      | [] => also (.text ['\\'] true) []
      | '\n' :: s => parts stop quoted fuel s
      | d :: s =>
        if !quoted || d = '$' || d = '`' || (d = '"' && stop ≠ .never) || d = '\\' then
          also (.text [d] true) s
        else also (.text ['\\', d] true) s
    else if c = '\'' && !quoted then
      match s.dropWhile (· ≠ '\'') with
      | _ :: rest => also (.text (s.takeWhile (· ≠ '\'')) true) rest
      | [] => none
    else if c = '"' && stop ≠ .quote && stop ≠ .never then do
      let (inner, rest) ← parts .quote true fuel s
      let inner := if inner.isEmpty then [.text [] true] else inner
      let (more, rest) ← parts stop quoted fuel (rest.drop 1)
      return (inner ++ more, rest)
    else if c = '`' then do
      let (script, rest) ← untilBackquote s
      also (.output script quoted) rest
    else if c = '$' then
      match s with
      | '(' :: s => do
        let (script, rest) ← untilClose 0 s
        match enclosed? script with
        | some expression => do
          let (ps, _) ← parts .never true fuel expression
          also (.arithmetic ps quoted) rest
        | none => also (.output script quoted) rest
      | '\x7b' :: '#' :: s =>
        match parameterName s with
        | some (name, '\x7d' :: rest) => also (.length name quoted) rest
        | _ =>
          match s with
          | '\x7d' :: rest => also (.parameter ['#'] quoted) rest
          | _ => none
      | '\x7b' :: s => do
        let (name, s) ← parameterName s
        let word (s : List Char) : Option (List Part × List Char) :=
          (parts .brace quoted fuel s).map fun (ps, r) => (ps, r.drop 1)
        let alternative (colon : Bool) (s : List Char) : Option (List Part × List Char) := do
          let kind ← match s.head? with
            | some '-' => some Alternative.whenUnset
            | some '=' => some .assign
            | some '+' => some .whenSet
            | some '?' => some .complain
            | _ => none
          let (w, rest) ← word (s.drop 1)
          also (.alternative name colon kind w quoted) rest
        match s with
        | '\x7d' :: rest => also (.parameter name quoted) rest
        | ':' :: s => alternative true s
        | '%' :: '%' :: s => do
          let (w, rest) ← word s
          also (.trimmed name true true w quoted) rest
        | '%' :: s => do
          let (w, rest) ← word s
          also (.trimmed name true false w quoted) rest
        | '#' :: '#' :: s => do
          let (w, rest) ← word s
          also (.trimmed name false true w quoted) rest
        | '#' :: s => do
          let (w, rest) ← word s
          also (.trimmed name false false w quoted) rest
        | s => alternative false s
      | s =>
        match s with
        | d :: r =>
          if d.isDigit then also (.parameter [d] quoted) r
          else
            match parameterName s with
            | some (name, rest) => also (.parameter name quoted) rest
            | none => also (.text ['$'] quoted) s
        | [] => also (.text ['$'] quoted) s
    else also (.text [c] quoted) s

end DocBuild.Shell
