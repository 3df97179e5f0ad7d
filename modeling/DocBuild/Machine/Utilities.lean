import DocBuild.Machine.Conditions
import DocBuild.Shell.Printf

namespace DocBuild.Machine

open Shell (Word)

private def unslashed (p : Path) : Path :=
  (p.reverse.dropWhile (· = Bytes.slash)).reverse

/-- The last name of a path, slashes behind it not counted. -/
def baseName (p : Path) : Path :=
  match unslashed p with
  | [] => if p = [] then [] else [Bytes.slash]
  | q => (q.reverse.takeWhile (· ≠ Bytes.slash)).reverse

/-- The path of the directory that a path leads into. -/
def directoryName (p : Path) : Path :=
  let q := unslashed p
  match (q.reverse.dropWhile (· ≠ Bytes.slash)).reverse with
  | [] => if q = [] ∧ p ≠ [] then [Bytes.slash] else [Bytes.dot]
  | d => match unslashed d with
    | [] => [Bytes.slash]
    | d => d

/-- Makes directories; with `-p` also those above them, and one that exists is no fault. -/
def makeDirectories (c : Call) (t : FileTree) : Completion :=
  let (flags, operands) := options c.arguments
  let one (p : Progress) (w : Word) : Progress :=
    let complaint := s!"mkdir: cannot create directory {shown w}"
    if flags.contains 'p' then
      let (t, r) := p.tree.makePath c.directory w.toBytes
      ({ p with tree := t }).after (r.map fun _ => t) complaint
    else p.after (p.tree.makeDirectory c.directory w.toBytes) complaint
  (operands.foldl one { tree := t }).finish

/-- Removes operands; a missing one is no failure under `-f`, and directories need `-r`. -/
def remove (c : Call) (t : FileTree) : Completion :=
  let (flags, operands) := options c.arguments
  let recursive := flags.contains 'r' || flags.contains 'R'
  let one (p : Progress) (w : Word) : Progress :=
    let path := w.toBytes
    let complaint := s!"rm: cannot remove {shown w}"
    let last := baseName path
    if last = [Bytes.dot] ∨ last = [Bytes.dot, Bytes.dot] then
      p.complain (Word.ofString
        s!"rm: refusing to remove '.' or '..' directory: skipping {shown w}")
    else
      match p.tree.entry c.directory .keep path with
      | .error e =>
        if e.isMissing && flags.contains 'f' then p else p.after (.error e) complaint
      | .ok (_, .directory) =>
        if recursive then
          let (t, r) := p.tree.removeForced FileTree.unobstructed c.directory path
          let quiet := flags.contains 'f' && (match r with
            | .error (.system e) => e = .notDirectory
            | _ => false)
          if quiet then { p with tree := t }
          else ({ p with tree := t }).after (r.map fun _ => t) complaint
        else p.after (.error (.system .isDirectory)) complaint
      | .ok _ => p.after (p.tree.removeFile c.directory path) complaint
  (operands.foldl one { tree := t }).finish

def removeDirectories (c : Call) (t : FileTree) : Completion :=
  let one (p : Progress) (w : Word) : Progress :=
    p.after (p.tree.removeDirectory c.directory w.toBytes) s!"rmdir: failed to remove {shown w}"
  ((options c.arguments).2.foldl one { tree := t }).finish

/-- Where an operand goes: into the last operand when that is a directory, else in its place. -/
def destination (t : FileTree) (directory : Location) (source target : Path) : Path :=
  if t.isDirectoryPath directory target then target.join (baseName source) else target

/-- Creates links; without `-s` a link is a second file of the same content. -/
def link (c : Call) (t : FileTree) : Completion :=
  let (flags, operands) := options c.arguments
  let (sources, target) : List Word × Path := match operands with
    | [w] => ([w], [Bytes.dot])
    | ws => (ws.dropLast, (ws.getLast?.getD []).toBytes)
  let one (p : Progress) (w : Word) : Progress :=
    let source := w.toBytes
    let place := if flags.contains 'n' && (match p.tree.entry c.directory .keep target with
        | .ok (_, .link _) => true
        | _ => false) then target
      else destination p.tree c.directory source target
    let t := if flags.contains 'f' then (match p.tree.removeFile c.directory place with
        | .ok t => t
        | .error _ => p.tree)
      else p.tree
    let kind := if flags.contains 's' then "symbolic" else "hard"
    let complaint := s!"ln: failed to create {kind} link {shown (Word.ofBytes place)}"
    if flags.contains 's' then
      ({ p with tree := t }).after (t.makeLink c.directory source place) complaint
    else
      ({ p with tree := t }).after (do
        if (t.entry c.directory .keep place).isOk then throw (FileError.system .alreadyExists)
        t.writeFile c.directory place (← t.readFile c.directory source)) complaint
  (sources.foldl one { tree := t }).finish

/-- Makes files that do not exist yet. -/
def touch (c : Call) (t : FileTree) : Completion :=
  let one (p : Progress) (w : Word) : Progress :=
    if p.tree.pathExists c.directory w.toBytes then p
    else p.after (p.tree.writeFile c.directory w.toBytes []) s!"touch: cannot touch {shown w}"
  ((options c.arguments).2.foldl one { tree := t }).finish

/-- The contents of the operands in order, or the input when there is none. -/
def contents (program : String) (c : Call) (operands : List Word) (p : Progress) : Progress :=
  let one (p : Progress) (w : Word) : Progress :=
    if w = ['-'] then p.print c.input
    else
      match p.tree.readFile c.directory w.toBytes with
      | .ok content => p.print (Word.ofBytes content)
      | .error e => p.after (.error e) s!"{program}: {Utf8.lossy w.toBytes}"
  if operands.isEmpty then p.print c.input else operands.foldl one p

def concatenate (c : Call) (t : FileTree) : Completion :=
  (contents "cat" c (options c.arguments).2 { tree := t }).finish

private def words (w : Word) : Nat :=
  ((w.splitBy fun a b => a.isWhitespace == b.isWhitespace).filter fun run =>
    run.head?.any fun c => !c.isWhitespace).length

def count (c : Call) (t : FileTree) : Completion :=
  let (flags, operands) := options c.arguments
  let p := contents "wc" c operands { tree := t }
  let all := flags.isEmpty
  let counts :=
    (if all || flags.contains 'l' then [p.output.count '\n'] else [])
      ++ (if all || flags.contains 'w' then [words p.output] else [])
      ++ (if all || flags.contains 'c' || flags.contains 'm' then [p.output.length] else [])
  let digits (n : Nat) : Word := Nat.toDigits 10 n
  let columns := match counts with
    | [n] => digits n
    | ns => [' '].intercalate (ns.map fun n =>
      List.replicate (7 - (digits n).length) ' ' ++ digits n)
  let name := match operands with
    | [w] => ' ' :: w
    | _ => []
  ({ p with output := columns ++ name ++ ['\n'] }).finish

/-- The characters that a set of `tr` names, in order. -/
def characterSet : Nat → List Char → List Char
  | 0, s => s
  | _ + 1, [] => []
  | fuel + 1, '\\' :: c :: s =>
    if (Shell.octalValue? c).isSome then
      let (n, s) := Shell.octal 3 (c :: s)
      Char.ofNat n :: characterSet fuel s
    else (Shell.escapeLetter? c).getD c :: characterSet fuel s
  | fuel + 1, a :: '-' :: b :: s =>
    (List.range (b.toNat + 1 - a.toNat)).map (fun i => Char.ofNat (a.toNat + i))
      ++ characterSet fuel s
  | fuel + 1, c :: s => c :: characterSet fuel s

def mapCharacters (c : Call) (t : FileTree) : Completion :=
  let (flags, operands) := options c.arguments
  let set (w : Word) : List Char := match String.ofList w with
    | "[:upper:]" => characterSet 9 "A-Z".toList
    | "[:lower:]" => characterSet 9 "a-z".toList
    | "[:digit:]" => characterSet 9 "0-9".toList
    | "[:space:]" => [' ', '\t', '\n', '\r', '\x0b', '\x0c']
    | _ => characterSet (w.length + 1) w
  let output := match operands with
    | [old] => if flags.contains 'd' then c.input.filter fun x => !(set old).contains x else c.input
    | [old, new] =>
      let a := set old
      let b := set new
      c.input.map fun x => match a.findIdx? (· = x) with
        | some i => (b[i]?).getD (b.getLast?.getD x)
        | none => x
    | _ => c.input
  finish t 0 output []

/-- Copies what `source` names, links kept as they are when `whole` is set. -/
def copyTo (whole : Bool) (t : FileTree) (directory : Location) (source target : Path) :
    Except FileError FileTree := do
  let (l, e) ← t.entry directory (if whole then .keep else .follow) source
  match e with
  | .file content executable =>
    let t ← t.writeFile directory target content
    match t.locate directory .follow target with
    | .ok (n :: k) => return t.put n k (.file content executable)
    | _ => return t
  | .link aim => t.makeLink directory aim target
  | .directory =>
    let t ← if t.isDirectoryPath directory target then pure t else t.makeDirectory directory target
    let k ← t.locate directory .follow target
    let inner := (t.entriesBelow l).filter fun e => !FileTree.atOrBelow k e.1
    return inner.foldl (fun t (m, e) =>
      match m.take (m.length - l.length) ++ k with
      | n :: k => t.put n k e
      | [] => t) t

def copy (c : Call) (t : FileTree) : Completion :=
  let (flags, operands) := options c.arguments
  let whole := flags.contains 'r' || flags.contains 'R' || flags.contains 'a'
  let target := (operands.getLast?.getD []).toBytes
  let one (p : Progress) (w : Word) : Progress :=
    if !whole && p.tree.isDirectoryPath c.directory w.toBytes then
      p.complain (Word.ofString s!"cp: -r not specified; omitting directory {shown w}")
    else
      p.after (copyTo whole p.tree c.directory w.toBytes
        (destination p.tree c.directory w.toBytes target)) s!"cp: cannot stat {shown w}"
  (operands.dropLast.foldl one { tree := t }).finish

def move (c : Call) (t : FileTree) : Completion :=
  let (_, operands) := options c.arguments
  let target := (operands.getLast?.getD []).toBytes
  let one (p : Progress) (w : Word) : Progress :=
    let place := destination p.tree c.directory w.toBytes target
    p.after (do
      let (source, e) ← p.tree.entry c.directory .keep w.toBytes
      let cleared := match p.tree.entry c.directory .keep place with
        | .ok (_, .directory) => p.tree
        | .ok _ => (p.tree.removeFile c.directory place).toOption.getD p.tree
        | .error _ => p.tree
      let copied ← match e with
        | .directory | .file .. => copyTo true cleared c.directory w.toBytes place
        | .link aim => cleared.makeLink c.directory aim place
      return copied.prune source) s!"mv: cannot stat {shown w}"
  (operands.dropLast.foldl one { tree := t }).finish

def changeMode (c : Call) (t : FileTree) : Completion :=
  match c.arguments.filter (· ≠ ['-', 'R']) with
  | [] => finish t 1 [] (Word.ofString "chmod: missing operand\n")
  | mode :: files =>
    let executable : Bool := match mode.dropWhile "ugoa".toList.contains with
      | '+' :: m => m.contains 'x'
      | '-' :: m => !m.contains 'x'
      | '=' :: m => m.contains 'x'
      | digits => digits.any fun d => d.isDigit && d.toNat % 2 = 1
    let one (p : Progress) (w : Word) : Progress :=
      match p.tree.entry c.directory .follow w.toBytes with
      | .ok (n :: l, .file content _) =>
        { p with tree := p.tree.put n l (.file content executable) }
      | .ok _ => p
      | .error e => p.after (.error e) s!"chmod: cannot access {shown w}"
    (files.foldl one { tree := t }).finish

def list (c : Call) (t : FileTree) : Completion :=
  let (flags, operands) := options c.arguments
  let all := flags.contains 'a' || flags.contains 'A'
  let one (p : Progress) (w : Word) : Progress :=
    match p.tree.entry c.directory .follow w.toBytes with
    | .error e => p.after (.error e) s!"ls: cannot access {shown w}"
    | .ok (l, .directory) =>
      let names := (p.tree.names l).filter fun n => all || n.head? ≠ some Bytes.dot
      p.print ((names.mergeSort Bytes.le).flatMap fun n => Word.ofBytes n ++ ['\n'])
    | .ok _ => p.print (w ++ ['\n'])
  ((if operands.isEmpty then [['.']] else operands).foldl one { tree := t }).finish

/-- The lines of a text, each with its line break. -/
def linesOf (w : Word) : List Word :=
  w.splitBy fun a _ => a ≠ '\n'

private def amount (flag : Char) : List Word → Option Nat
  | ['-', f] :: n :: rest =>
    if f = flag then (String.ofList n).toNat? else amount flag (n :: rest)
  | ('-' :: f :: n) :: rest =>
    if f = flag then (String.ofList n).toNat? else amount flag rest
  | _ :: rest => amount flag rest
  | [] => none

private def operandsOf (args : List Word) : List Word :=
  match args with
  | ['-', _] :: _ :: rest => rest
  | ('-' :: _ :: _) :: rest => rest
  | rest => rest

/-- The beginning of a text, or with `fromEnd` its end, in lines or bytes. -/
def excerpt (program : String) (fromEnd : Bool) (c : Call) (t : FileTree) : Completion :=
  let p := contents program c (operandsOf c.arguments) { tree := t }
  let cut {α : Type} (n : Nat) (xs : List α) : List α :=
    if fromEnd then xs.drop (xs.length - n) else xs.take n
  let output := match amount 'c' c.arguments with
    | some n => cut n p.output
    | none => (cut ((amount 'n' c.arguments).getD 10) (linesOf p.output)).flatten
  ({ p with output }).finish

/-- Sorts the lines of the input by their bytes. -/
def sortLines (c : Call) (t : FileTree) : Completion :=
  let p := contents "sort" c (options c.arguments).2 { tree := t }
  let ended := if p.output.getLast?.all (· = '\n') then p.output else p.output ++ ['\n']
  let sorted := (linesOf ended).mergeSort fun a b => Bytes.le a.toBytes b.toBytes
  ({ p with output := sorted.flatten }).finish

def tee (c : Call) (t : FileTree) : Completion :=
  let one (p : Progress) (w : Word) : Progress :=
    p.after (p.tree.writeFile c.directory w.toBytes c.input.toBytes) s!"tee: {Utf8.lossy w.toBytes}"
  ((options c.arguments).2.foldl one { tree := t, output := c.input }).finish

/-- The program `echo`, which reads escapes only when asked to. -/
def echoProgram (c : Call) (t : FileTree) : Completion :=
  let isOption (w : Word) : Bool := match w with
    | '-' :: c :: cs => (c :: cs).all fun f => f = 'n' || f = 'e' || f = 'E'
    | _ => false
  let flags := (c.arguments.takeWhile isOption).flatten
  let text := [' '].intercalate (c.arguments.dropWhile isOption)
  let (text, stop) := if flags.contains 'e' then Shell.unescapeArgument text else (text, false)
  finish t 0 (if stop || flags.contains 'n' then text else text ++ ['\n']) []

def printFormatted (c : Call) (t : FileTree) : Completion :=
  match c.arguments with
  | [] => finish t 1 [] (Word.ofString "printf: missing operand\n")
  | format :: args =>
    let (w, complaints) := Shell.formatted format args
    finish t (if complaints.isEmpty then 0 else 1) w
      (complaints.flatMap fun m => Word.ofString "printf: " ++ m ++ ['\n'])

def range (c : Call) (t : FileTree) : Completion :=
  let bounds : Option (Nat × Nat) := match c.arguments.map fun w => (String.ofList w).toNat? with
    | [some last] => some (1, last)
    | [some first, some last] => some (first, last)
    | _ => none
  match bounds with
  | none => finish t 1 [] (Word.ofString "seq: invalid argument\n")
  | some (first, last) =>
    let line (i : Nat) : Word := Nat.toDigits 10 (first + i) ++ ['\n']
    finish t 0 ((List.range (last + 1 - first)).flatMap line) []

/-- Writes what links point to. -/
def readLinks (c : Call) (t : FileTree) : Completion :=
  let one (p : Progress) (w : Word) : Progress :=
    match p.tree.entry c.directory .keep w.toBytes with
    | .ok (_, .link aim) => p.print (Word.ofBytes aim ++ ['\n'])
    | _ => { p with status := 1 }
  ((options c.arguments).2.foldl one { tree := t }).finish

/-- The last name of a path, less a given ending. -/
def printBaseName (c : Call) (t : FileTree) : Completion :=
  let name := baseName (c.arguments.headD []).toBytes
  let ending := (c.arguments.getD 1 []).toBytes
  let name :=
    if ending.isSuffixOf name && ending ≠ name then name.take (name.length - ending.length) else name
  finish t 0 (Word.ofBytes name ++ ['\n']) []

structure Utility where
  name : String
  /-- The letters it takes as options; a program without such a list reads its arguments as they
      are. -/
  letters : Option String := none
  /-- The status with which it refuses other options. -/
  refusal : Nat := 1
  run : Call → FileTree → Completion

namespace Utility

/-- The complaint about the first option that a program does not know. Long options are not known at
    all; the letter of a numeric option may be followed by its value. -/
def complaint? (u : Utility) (letters : String) : List Word → Option Word
  | [] | ['-', '-'] :: _ => none
  | ('-' :: '-' :: w) :: _ =>
    some (Word.ofString s!"{u.name}: unrecognized option '--" ++ w ++ Word.ofString "'\n")
  | ('-' :: c :: cs) :: rest =>
    match (c :: cs).find? fun x => !letters.contains x && !x.isDigit with
    | some x => some (Word.ofString s!"{u.name}: invalid option -- '" ++ x :: Word.ofString "'\n")
    | none => u.complaint? letters rest
  | _ :: rest => u.complaint? letters rest

/-- Runs the program unless an argument is an option that it does not know. -/
def start (u : Utility) (c : Call) (t : FileTree) : Completion :=
  match u.letters.bind fun letters => u.complaint? letters c.arguments with
  | some complaint =>
    let advice := s!"Try '{u.name} --help' for more information.\n"
    finish t u.refusal [] (complaint ++ Word.ofString advice)
  | none => u.run c t

end Utility

/-- The programs of the machine other than the shell. -/
def utilities : List Utility := [
  { name := "true", run := fun _ t => finish t 0 [] [] },
  { name := "false", run := fun _ t => finish t 1 [] [] },
  { name := "sleep", letters := some "", run := fun _ t => finish t 0 [] [] },
  { name := "sync", letters := some "df", run := fun _ t => finish t 0 [] [] },
  { name := "echo", run := echoProgram },
  { name := "printf", run := printFormatted },
  { name := "pwd", letters := some "LP",
    run := fun c t => finish t 0 (Word.ofBytes c.directory.path ++ ['\n']) [] },
  { name := "test", run := fun c t => finish t (conditionStatus t c.directory c.arguments) [] [] },
  { name := "[", run := fun c t =>
      if c.arguments.getLast? = some [']'] then
        finish t (conditionStatus t c.directory c.arguments.dropLast) [] []
      else finish t 2 [] (Word.ofString "[: missing ']'\n") },
  { name := "mkdir", letters := some "pv", run := makeDirectories },
  { name := "rm", letters := some "rRfdvi", run := remove },
  { name := "rmdir", letters := some "pv", run := removeDirectories },
  { name := "ln", letters := some "sfnvTir", run := link },
  { name := "readlink", letters := some "nqsv", run := readLinks },
  { name := "touch", letters := some "acmh", run := touch },
  { name := "cat", letters := some "u", run := concatenate },
  { name := "wc", letters := some "clmw", run := count },
  { name := "tr", letters := some "dcst", run := mapCharacters },
  { name := "cp", letters := some "rRafpPdLHvnT", run := copy },
  { name := "mv", letters := some "fnvT", run := move },
  { name := "chmod", run := changeMode },
  { name := "ls", letters := some "1aAld", refusal := 2, run := list },
  { name := "head", letters := some "cnqv", run := excerpt "head" false },
  { name := "tail", letters := some "cnqv", run := excerpt "tail" true },
  { name := "sort", letters := some "u", refusal := 2, run := sortLines },
  { name := "tee", letters := some "ai", run := tee },
  { name := "seq", letters := some "", run := range },
  { name := "basename", letters := some "", run := printBaseName },
  { name := "dirname", letters := some "", run := fun c t =>
      finish t 0 (Word.ofBytes (directoryName (c.arguments.headD []).toBytes) ++ ['\n']) [] }]

def utility? (name : String) : Option Utility :=
  utilities.find? (·.name = name)

end DocBuild.Machine
