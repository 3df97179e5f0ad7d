import DocBuild.Machine.Utilities
import DocBuild.Shell.Expansion
import DocBuild.Shell.Signal

namespace DocBuild.Shell

/-- A path with its `.` and `..` segments taken away by text alone. -/
def logicalPath (base target : Word) : Word :=
  let whole := if target.head? = some '/' then target else base ++ '/' :: target
  let segments := (Bytes.splitOn Bytes.slash whole.toBytes).foldl (fun (acc : List Bytes) seg =>
    if Path.staysHere seg then acc
    else if Path.goesUp seg then acc.tail
    else seg :: acc) []
  Word.ofBytes (Location.path segments)

/-- Goes to a directory, the home directory when none is named. -/
def changeDirectory (args : List Word) : Run Unit := do
  let s ← get
  let target := match args.filter (fun w => w ≠ ['-', 'P'] && w ≠ ['-', 'L']) with
    | w :: _ => w
    | [] => (s.bindings.lookup "HOME".toList).getD []
  match s.tree.entry s.directory .follow target.toBytes with
  | .ok (l, .directory) => do
    let here := (s.bindings.lookup "PWD".toList).getD (Word.ofBytes s.directory.path)
    set { s with directory := l, status := 0 }
    assign "PWD".toList (logicalPath here target)
  | _ => do
    shellComplaint s!"cd: can't cd to {Utf8.lossy target.toBytes}"
    setStatus 2

/-- Reads a line into variables, split at blanks; the last variable takes what is left. -/
def readLine (names : List Word) : Run Unit := do
  let s ← get
  let line := s.input.takeWhile (· ≠ '\n')
  let ended := s.input.length > line.length
  set { s with input := s.input.drop (line.length + 1), status := if ended then 0 else 1 }
  let rec go : List Word → Word → Run Unit
    | [], _ => return ()
    | [n], w => assign n ((w.dropWhile isSeparator).reverse.dropWhile isSeparator).reverse
    | n :: ns, w => do
      let w := w.dropWhile isSeparator
      assign n (w.takeWhile fun c => !isSeparator c)
      go ns (w.dropWhile fun c => !isSeparator c)
  go (names.filter (· ≠ ['-', 'r'])) line

private def statusArgument (args : List Word) : Run Nat := do
  match args with
  | [] => return (← get).status
  | w :: _ =>
    match (String.ofList w).toNat? with
    | some n => return n % 256
    | none => do
      shellComplaint s!"exit: Illegal number: {Utf8.lossy w.toBytes}"
      throw (.ended (.exited 2))

private def exportNames (args : List Word) : Run Unit := do
  for w in args do
    let name := w.takeWhile (· ≠ '=')
    if name.length < w.length then assign name (w.drop (name.length + 1))
    modify fun s => { s with exported := name :: s.exported }
  setStatus 0

/-- Options and arguments of `set`. -/
private def setOptions : List Word → Run Unit
  | [] => return ()
  | ['-', '-'] :: rest => modify fun s => { s with positional := rest }
  | ('-' :: flags) :: rest => do
    if flags.contains 'e' then modify fun s => { s with strict := true }
    setOptions rest
  | ('+' :: flags) :: rest => do
    if flags.contains 'e' then modify fun s => { s with strict := false }
    setOptions rest
  | rest => modify fun s => { s with positional := rest }

/-- The commands that the shell carries out itself; nothing when the name is no such command. -/
def builtin? (evaluate : Word → Run Unit) (name : String) (args : List Word) : Option (Run Unit) :=
  match name with
  | ":" | "true" | "umask" | "ulimit" | "wait" | "readonly" => some (setStatus 0)
  | "trap" => some (trap args)
  | "false" => some (setStatus 1)
  | "echo" => some do
    print (echoed args)
    setStatus 0
  | "printf" => some do
    match args with
    | [] => do
      shellComplaint "printf: usage: printf format [arg ...]"
      setStatus 2
    | format :: args => do
      let (w, complaints) := formatted format args
      for m in complaints do
        shellComplaint s!"printf: {Utf8.lossy m.toBytes}"
      print w
      let isGrave (m : Word) : Bool := (Word.ofString "invalid directive").isSuffixOf m
      setStatus (if complaints.isEmpty then 0 else if complaints.any isGrave then 2 else 1)
  | "pwd" => some do
    let s ← get
    let physical := Word.ofBytes s.directory.path
    let logical := (s.bindings.lookup "PWD".toList).getD physical
    print ((if args.contains ['-', 'P'] then physical else logical) ++ ['\n'])
    setStatus 0
  | "test" => some do
    let s ← get
    setStatus (Machine.conditionStatus s.tree s.directory args)
  | "[" => some do
    let s ← get
    if args.getLast? = some [']'] then
      setStatus (Machine.conditionStatus s.tree s.directory args.dropLast)
    else do
      shellComplaint "[: missing ]"
      setStatus 2
  | "cd" => some (changeDirectory args)
  | "exit" => some do throw (.ended (.exited (← statusArgument args)))
  | "return" => some do
    setStatus (← statusArgument args)
    throw .returned
  | "break" => some (throw .leaveLoop)
  | "continue" => some (throw .nextTurn)
  | "read" => some (readLine args)
  | "kill" => some (kill evaluate args)
  | "set" => some do
    setOptions args
    setStatus 0
  | "shift" => some do
    let n := ((args.head?.map String.ofList).bind String.toNat?).getD 1
    modify fun s => { s with positional := s.positional.drop n, status := 0 }
  | "export" => some (exportNames args)
  | "local" => some (exportNames args)
  | "unset" => some do
    modify fun s => { s with bindings := s.bindings.filter (!args.contains ·.1), status := 0 }
  | "eval" => some (evaluate ([' '].intercalate args))
  | _ => none

/-- The commands whose failed redirection ends the script. -/
def specialBuiltins : List String :=
  [":", "break", "continue", "eval", "exec", "exit", "export", "readonly", "return", "set", "shift",
    "trap", "unset"]

end DocBuild.Shell
