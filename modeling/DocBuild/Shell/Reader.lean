import DocBuild.Shell.Token

namespace DocBuild.Shell

/-- The text of a word that is written without any quoting or expansion. -/
def plain? (parts : List Part) : Option Word :=
  (parts.mapM fun p =>
    match p with
    | Part.text s false => some s
    | _ => none).map List.flatten

/-- The word at the start, when it is written plainly. -/
def plainWord? : List Token → Option String
  | .word ps :: _ => (plain? ps).map String.ofList
  | _ => none

/-- Words that end a list of commands. -/
def closers : List String :=
  ["then", "else", "elif", "fi", "do", "done", "esac", "\x7d"]

/-- An assignment word: a name, an equals sign and a value. -/
def assignment? (ps : List Part) : Option (Word × List Part) :=
  let rec go (name : Word) : List Part → Option (Word × List Part)
    | .text [c] false :: rest =>
      if c = '=' then
        match name with
        | [] => none
        | _ => some (name, rest)
      else if (if name.isEmpty then isNameStart c else isNameChar c) then go (name ++ [c]) rest
      else none
    | _ => none
  go [] ps

def skipNewlines : List Token → List Token
  | .newline :: ts => skipNewlines ts
  | ts => ts

def expectWord (w : String) (ts : List Token) : Option (List Token) :=
  if plainWord? ts = some w then some (ts.drop 1) else none

/-- The redirections at the start. -/
def redirects : List Token → List Redirect × List Token
  | .redirect d k :: .word ps :: ts =>
    let (rs, rest) := redirects ts
    (⟨d.getD 1, k, ps⟩ :: rs, rest)
  | ts => ([], ts)

/-- The words and redirections of a simple command. Assignments count before the first word only; what
    looks like one behind it is an argument. -/
def simpleParts : List Token →
    Option (List (Word × List Part) × List (List Part) × List Redirect × List Token)
  | .redirect d k :: .word ps :: ts => do
    let (as, ws, rs, rest) ← simpleParts ts
    return (as, ws, ⟨d.getD 1, k, ps⟩ :: rs, rest)
  | .redirect .. :: _ => none
  | .word ps :: ts => do
    let (as, ws, rs, rest) ← simpleParts ts
    match assignment? ps with
    | some a => return (a :: as, ws, rs, rest)
    | none =>
      let back := as.map fun (name, value) =>
        name.map (fun c => Part.text [c] false) ++ [Part.text ['='] false] ++ value
      return ([], ps :: back ++ ws, rs, rest)
  | ts => some ([], [], [], ts)

/-- The words up to the end of a line or a semicolon. -/
def wordList : List Token → List (List Part) × List Token
  | .word ps :: ts =>
    let (ws, rest) := wordList ts
    (ps :: ws, rest)
  | ts => ([], ts)

/-- Skips one separator and the line breaks behind it. -/
def skipSeparator : List Token → List Token
  | .operator ";" :: ts => skipNewlines ts
  | ts => skipNewlines ts

/-- The patterns of one case, up to the parenthesis. -/
def patterns : List Token → Option (List (List Part) × List Token)
  | .word ps :: .operator "|" :: ts => do
    let (more, rest) ← patterns ts
    return (ps :: more, rest)
  | .word ps :: .operator ")" :: ts => some ([ps], ts)
  | _ => none

/-- A command of words, assignments and redirections; at least one of them. -/
def simpleCommand (ts : List Token) : Option (Command × List Token) := do
  let (as, ws, rs, rest) ← simpleParts ts
  if as.isEmpty && ws.isEmpty && rs.isEmpty then none
  else return (.simple as ws rs, rest)

mutual

/-- A pipeline, perhaps negated. -/
def pipeline : Nat → List Token → Option (Command × List Token)
  | 0, _ => none
  | fuel + 1, ts =>
    if plainWord? ts = some "!" then do
      let (c, rest) ← pipeline fuel (ts.drop 1)
      return (.negated c, rest)
    else do
      let (c, rest) ← command fuel ts
      match rest with
      | .operator "|" :: rest => do
        let (d, rest) ← pipeline fuel (skipNewlines rest)
        return (.pipe c d, rest)
      | _ => return (c, rest)

/-- Pipelines joined by `&&` and `||`, grouped from the left. -/
def andOr : Nat → List Token → Option (Command × List Token)
  | 0, _ => none
  | fuel + 1, ts => do
    let (c, rest) ← pipeline fuel ts
    joined fuel c rest

/-- The joined pipelines behind a first one. -/
def joined : Nat → Command → List Token → Option (Command × List Token)
  | 0, _, _ => none
  | fuel + 1, c, ts =>
    match ts with
    | .operator "&&" :: rest => do
      let (d, rest) ← pipeline fuel (skipNewlines rest)
      joined fuel (.andThen c d) rest
    | .operator "||" :: rest => do
      let (d, rest) ← pipeline fuel (skipNewlines rest)
      joined fuel (.orElse c d) rest
    | _ => some (c, ts)

/-- Commands up to a word or sign that closes the list; there must be at least one. -/
def commandList : Nat → List Token → Option (Command × List Token)
  | 0, _ => none
  | fuel + 1, ts => do
    let (c, rest) ← andOr fuel (skipNewlines ts)
    let rest := match rest with
      | .operator ";" :: rest => skipNewlines rest
      | .operator "&" :: rest => skipNewlines rest
      | rest => skipNewlines rest
    let closed := match rest with
      | [] | .operator ")" :: _ | .operator ";;" :: _ => true
      | rest => match plainWord? rest with
        | some w => closers.contains w
        | none => false
    if closed then return (c, rest)
    else do
      let (more, rest) ← commandList fuel rest
      return (.sequence [c, more], rest)

/-- The rest of an `if` behind its first word. -/
def branches : Nat → List Token → Option (Command × List Token)
  | 0, _ => none
  | fuel + 1, ts => do
    let (test, rest) ← commandList fuel ts
    let (yes, rest) ← commandList fuel (← expectWord "then" rest)
    match plainWord? rest with
    | some "elif" => do
      let (no, rest) ← branches fuel (rest.drop 1)
      return (.branch test yes no, rest)
    | some "else" => do
      let (no, rest) ← commandList fuel (rest.drop 1)
      return (.branch test yes no, ← expectWord "fi" rest)
    | _ => return (.branch test yes (.sequence []), ← expectWord "fi" rest)

/-- The cases of a `case` up to its last word. -/
def cases : Nat → List Token → Option (List (List (List Part) × Command) × List Token)
  | 0, _ => none
  | fuel + 1, ts =>
    let ts := skipNewlines ts
    match expectWord "esac" ts with
    | some rest => some ([], rest)
    | none => do
      let ts := match ts with
        | .operator "(" :: ts => ts
        | ts => ts
      let (ps, rest) ← patterns ts
      let rest := skipNewlines rest
      let empty := match rest with
        | .operator ";;" :: _ => true
        | _ => plainWord? rest = some "esac"
      let (body, rest) ← if empty then some (.sequence [], rest) else commandList fuel rest
      let rest := match rest with
        | .operator ";;" :: rest => rest
        | rest => rest
      let (more, rest) ← cases fuel rest
      return ((ps, body) :: more, rest)

/-- A single command: compound, or simple. -/
def command : Nat → List Token → Option (Command × List Token)
  | 0, _ => none
  | fuel + 1, ts => do
    let wrapped (c : Command) (rest : List Token) : Option (Command × List Token) :=
      match redirects rest with
      | ([], rest) => some (c, rest)
      | (rs, rest) => some (.group c rs, rest)
    match ts with
    | .operator "(" :: rest => do
      let (c, rest) ← commandList fuel rest
      match rest with
      | .operator ")" :: rest =>
        let (rs, rest) := redirects rest
        return (.subshell c rs, rest)
      | _ => none
    | .word ps :: .operator "(" :: .operator ")" :: rest => do
      let (body, rest) ← command fuel (skipNewlines rest)
      return (.define (← plain? ps) body, rest)
    | _ =>
      match plainWord? ts with
      | some "\x7b" => do
        let (c, rest) ← commandList fuel (ts.drop 1)
        let (rs, rest) := redirects (← expectWord "\x7d" rest)
        return (.group c rs, rest)
      | some "if" => do
        let (c, rest) ← branches fuel (ts.drop 1)
        wrapped c rest
      | some "while" => do
        let (test, rest) ← commandList fuel (ts.drop 1)
        let (body, rest) ← commandList fuel (← expectWord "do" rest)
        wrapped (.loop false test body) (← expectWord "done" rest)
      | some "until" => do
        let (test, rest) ← commandList fuel (ts.drop 1)
        let (body, rest) ← commandList fuel (← expectWord "do" rest)
        wrapped (.loop true test body) (← expectWord "done" rest)
      | some "for" => do
        let rest := ts.drop 1
        let name ← match rest with
          | .word ps :: _ => plain? ps
          | _ => none
        let rest := skipNewlines (rest.drop 1)
        let (words, rest) := match expectWord "in" rest with
          | some rest =>
            let (ws, rest) := wordList rest
            (some ws, rest)
          | none => (none, rest)
        let (body, rest) ← commandList fuel (← expectWord "do" (skipSeparator rest))
        wrapped (.forEach name words body) (← expectWord "done" rest)
      | some "case" => do
        match ts.drop 1 with
        | .word ps :: rest => do
          let rest ← expectWord "in" (skipNewlines rest)
          let (cs, rest) ← cases fuel rest
          wrapped (.choose ps cs) rest
        | _ => none
      | some w => if closers.contains w then none else simpleCommand ts
      | none => simpleCommand ts
end

/-- The commands of a script, line by line, up to the first that is no command, and whether that is
    all of it. What stands before a syntax error is still run. -/
def commandLines : Nat → List Token → List Command × Bool
  | 0, ts => ([], ts.isEmpty)
  | fuel + 1, ts =>
    match skipNewlines ts with
    | [] => ([], true)
    | ts =>
      match andOr (ts.length * 4 + 4) ts with
      | none => ([], false)
      | some (c, rest) =>
        let next := match rest with
          | .operator ";" :: rest => some rest
          | .operator "&" :: rest => some rest
          | .newline :: rest => some rest
          | [] => some []
          | _ => none
        match next with
        | none => ([c], false)
        | some rest =>
          let (cs, complete) := commandLines fuel rest
          (c :: cs, complete)

/-- The commands of a script and whether they are all of it. -/
def script (s : Word) : List Command × Bool :=
  let (ts, complete) := tokens (s.length + 1) s
  let (cs, read) := commandLines (ts.length + 1) ts
  (cs, complete && read)

end DocBuild.Shell
