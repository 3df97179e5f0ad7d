import DocBuild.Shell.Arithmetic
import DocBuild.Shell.Pattern
import DocBuild.Shell.State

namespace DocBuild.Shell

/-- What a part of a word expands to: runs of characters, and the borders of separate arguments. -/
inductive Atom where
  /-- Unquoted characters of a value are split at blanks. -/
  | run (w : Word) (quoted split : Bool)
  | border

/-- Characters at which unquoted values are split. -/
def isSeparator (c : Char) : Bool := c = ' ' || c = '\t' || c = '\n'

/-- Puts atoms together to words. The word under construction is absent until something, perhaps
    quoted and empty, belongs to it. -/
def assemble (current : Option Marked) : List Atom → List Marked
  | [] => current.toList
  | .border :: rest => (current.getD []) :: assemble (some []) rest
  | .run w quoted split :: rest =>
    if split && !quoted then
      let rec go (current : Option Marked) : Word → List Marked × Option Marked
        | [] => ([], current)
        | c :: w =>
          if isSeparator c then
            let (ms, last) := go none w
            (current.toList ++ ms, last)
          else go (some (current.getD [] ++ [(c, false)])) w
      let (done, last) := go current w
      done ++ assemble last rest
    else if quoted || !w.isEmpty then
      assemble (some (current.getD [] ++ w.map fun c => (c, quoted))) rest
    else assemble current rest

/-- The shortest or longest end or beginning that a pattern matches is cut off. -/
def trimmed (pattern : Marked) (atEnd longest : Bool) (w : Word) : Word :=
  let lengths := List.range (w.length + 1)
  let lengths := if longest then lengths.reverse else lengths
  let fits (n : Nat) : Bool :=
    if atEnd then pattern.matches (w.drop (w.length - n)) else pattern.matches (w.take n)
  match lengths.find? fits with
  | some n => if atEnd then w.take (w.length - n) else w.drop n
  | none => w

/-- The value of an integer expression; one without a value ends the script. -/
def evaluateInteger (w : Word) : Run Word := do
  let fail (reason : String) : Run Word := do
    shellComplaint reason
    throw (.ended (.exited 2))
  let text := Utf8.lossy w.toBytes
  match Expression.ofText? w with
  | none => fail s!"arithmetic expression: expecting primary: \"{text}\""
  | some e =>
    match e.value.run (← get).bindings with
    | .ok (n, bindings) => do
      modify fun s => { s with bindings }
      return integerText n.toInt
    | .error .divisionByZero => fail s!"arithmetic expression: division by zero: \"{text}\""
    | .error (.notANumber w) => fail s!"Illegal number: {Utf8.lossy (Word.toBytes w)}"

/-- Expands the parts of a word, nested words by the given expansion. -/
def expandPart (output : Word → Run Word) (nested : List Part → Run (List Atom)) :
    Part → Run (List Atom)
  | .text w quoted => return [.run w quoted false]
  | .parameter ['@'] true => do
    match (← get).positional with
    | [] => return []
    | w :: ws => return .run w true false :: ws.flatMap fun w => [.border, .run w true false]
  | .parameter name quoted => do
    return [.run ((← parameter? name).getD []) quoted true]
  | .length name quoted => do
    return [.run (decimal ((← parameter? name).getD []).length) quoted true]
  | .output script quoted => do
    return [.run (← output script) quoted true]
  | .arithmetic expression quoted => do
    let w : Word := ((assemble (some []) (← nested expression)).map Marked.plain).flatten
    return [.run (← evaluateInteger w) quoted true]
  | .alternative name colon kind word quoted => do
    let value ← parameter? name
    let isSet := value.any fun v => !(colon && v.isEmpty)
    match kind with
    | .whenSet => if isSet then nested word else return [.run [] quoted true]
    | .whenUnset => if isSet then return [.run (value.getD []) quoted true] else nested word
    | .assign =>
      if isSet then return [.run (value.getD []) quoted true]
      else do
        let w : Word := ((assemble (some []) (← nested word)).map Marked.plain).flatten
        assign name w
        return [.run w quoted true]
    | .complain =>
      if isSet then return [.run (value.getD []) quoted true]
      else do
        let w : Word := ((assemble (some []) (← nested word)).map Marked.plain).flatten
        shellComplaint s!"{Utf8.lossy name.toBytes}: {Utf8.lossy (Word.toBytes w)}"
        throw (.ended (.exited 2))
  | .trimmed name atEnd longest pattern quoted => do
    let p := (assemble (some []) (← nested pattern)).flatten
    return [.run (trimmed p atEnd longest ((← parameter? name).getD [])) quoted true]

def expandParts (output : Word → Run Word) : Nat → List Part → Run (List Atom)
  | 0, _ => return []
  | fuel + 1, parts => do
    return (← parts.mapM (expandPart output (expandParts output fuel))).flatten

/-- How deep expansions may be nested. -/
def expansionDepth : Nat := 50

/-- The names that a pattern matches, in order; the word itself when there is none. Only the last
    segment of a word is matched against names. -/
def matchNames (s : State) (m : Marked) : List Word :=
  if !m.isPattern then [m.plain]
  else
    let segment : Marked := (m.reverse.takeWhile fun c => c.1 ≠ '/').reverse
    let before : Word := (m.take (m.length - segment.length)).map (·.1)
    let directory := if before.isEmpty then some s.directory
      else (s.tree.locate s.directory .follow before.toBytes).toOption
    match directory with
    | none => [m.plain]
    | some l =>
      let names := ((s.tree.names l).mergeSort Bytes.le).map Word.ofBytes
      let hidden := segment.head?.any fun c => c.1 = '.'
      match names.filter fun n => segment.matches n && (hidden || n.head? ≠ some '.') with
      | [] => [m.plain]
      | found => found.map (before ++ ·)

def expandWords (output : Word → Run Word) (words : List (List Part)) : Run (List Word) := do
  let mut result := []
  for w in words do
    let marked := assemble none (← expandParts output expansionDepth w)
    let s ← get
    result := result ++ marked.flatMap (matchNames s)
  return result

def expandOne (output : Word → Run Word) (parts : List Part) : Run Marked := do
  let atoms ← expandParts output expansionDepth parts
  return atoms.flatMap fun
    | .run w quoted _ => w.map fun c => (c, quoted)
    | .border => [(' ', true)]

end DocBuild.Shell
