import DocBuild.Shell.Part

namespace DocBuild.Shell

inductive Token where
  | word (parts : List Part)
  | operator (s : String)
  | redirect (descriptor : Option Nat) (kind : RedirectKind)
  | newline

/-- The operators, longer ones before their beginnings. -/
def operators : List String :=
  ["&&", "||", ";;", ";", "&", "|", "(", ")"]

/-- A redirection sign and the text behind it. -/
def redirectSign : List Char → Option (RedirectKind × List Char)
  | '>' :: '>' :: s => some (.append, s)
  | '>' :: '&' :: s => some (.duplicate, s)
  | '>' :: '|' :: s => some (.write, s)
  | '<' :: '&' :: s => some (.duplicate, s)
  | '>' :: s => some (.write, s)
  | '<' :: s => some (.read, s)
  | _ => none

/-- The descriptor that a redirection without a number is for. -/
def defaultDescriptor (s : List Char) : Nat :=
  if s.head? = some '<' then 0 else 1

/-- The lines up to one that is just `last`, and what follows that line. With `indented`, tabs at
    the beginning of a line do not count. -/
def untilLine (indented : Bool) (last : Word) : Nat → List Char → Word × List Char
  | 0, s => (s, [])
  | _ + 1, [] => ([], [])
  | fuel + 1, s =>
    let s := if indented then s.dropWhile (· = '\t') else s
    let line := s.takeWhile (· ≠ '\n')
    let rest := s.drop (line.length + 1)
    if line = last then ([], rest)
    else
      let (more, after) := untilLine indented last fuel rest
      (line ++ '\n' :: more, after)

/-- A text that stands in the script below the line that asks for it: its parts, and the script
    without it. A quoted end mark keeps the text from being expanded. -/
def hereText (s : List Char) : Option (List Part × List Char) := do
  let (indented, s) := match s with
    | '-' :: s => (true, s)
    | s => (false, s)
  let (mark, s) ← parts .word false (s.length + 1) (s.dropWhile isBlank)
  let last := (mark.map fun p => match p with
    | .text w _ => w
    | _ => []).flatten
  let isQuoted := mark.any fun p => match p with
    | .text _ quoted => quoted
    | _ => false
  let line := s.takeWhile (· ≠ '\n')
  let (text, rest) := untilLine indented last (s.length + 1) (s.drop (line.length + 1))
  let below := line ++ '\n' :: rest
  if isQuoted then return ([Part.text text true], below)
  else return ((← parts .never true (text.length + 1) text).1, below)

/-- The tokens of a script as far as they can be read, and whether that is all of it. -/
def tokens : Nat → List Char → List Token × Bool
  | 0, s => ([], s.isEmpty)
  | fuel + 1, s =>
    let also (t : Token) (s : List Char) : List Token × Bool :=
      let (ts, complete) := tokens fuel s
      (t :: ts, complete)
    match s with
    | [] => ([], true)
    | '\\' :: '\n' :: s => tokens fuel s
    | '\n' :: s => also .newline s
    | c :: r =>
      if isBlank c then tokens fuel r
      else if c = '#' then tokens fuel (r.dropWhile (· ≠ '\n'))
      else
        let digits := s.takeWhile Char.isDigit
        if "<<".toList.isPrefixOf s then
          match hereText (s.drop 2) with
          | some (ps, rest) =>
            let (ts, complete) := tokens fuel rest
            (.redirect (some 0) .here :: .word ps :: ts, complete)
          | none => ([], false)
        else
        match redirectSign (s.drop digits.length) with
        | some (kind, rest) =>
          let descriptor := if digits.isEmpty then defaultDescriptor s
            else (String.ofList digits).toNat?.getD 0
          also (.redirect descriptor kind) rest
        | none =>
          match operators.find? (fun op => op.toList.isPrefixOf s) with
          | some op => also (.operator op) (s.drop op.length)
          | none =>
            match parts .word false (s.length + 1) s with
            | some (ps, rest) => also (.word ps) rest
            | none => ([], false)

end DocBuild.Shell
