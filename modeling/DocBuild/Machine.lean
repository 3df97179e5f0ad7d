import DocBuild.Shell.Interpreter

namespace DocBuild.Machine

open Shell (Word)

/-- How native programs begin. -/
def nativeMark : Bytes := 0x7f :: Bytes.ofString "ELF"

/-- How scripts with an interpreter begin. -/
def scriptMark : Bytes := Bytes.ofString "#!"

/-- The interpreter in the first line of a script, and the one argument it may have. -/
def interpreter? (content : Bytes) : Option (Bytes × List Bytes) :=
  let blank (b : UInt8) : Bool := b = 0x20 || b = 0x09
  let line := ((content.drop 2).take 253).takeWhile (· ≠ Bytes.newline)
  let line := ((line.dropWhile blank).reverse.dropWhile blank).reverse
  match line.takeWhile (fun b => !blank b) with
  | [] => none
  | path =>
    match (line.drop path.length).dropWhile blank with
    | [] => some (path, [])
    | argument => some (path, [argument])

/-- The state in which a shell starts. -/
def shellState (c : Call) (t : FileTree) (name : Word) (positional : List Word) : Shell.State where
  tree := t
  directory := c.directory
  bindings := ("PWD".toList, Word.ofBytes c.directory.path)
    :: c.environment.filter (·.1 ≠ "PWD".toList)
  exported := c.environment.map (·.1)
  name := name
  positional := positional
  input := c.input

/-- How many commands deep a script may go, and how often it may turn in a loop. -/
def scriptFuel : Nat := 20000

/-- Runs the shell: a script from a file, from an argument or from the input. -/
def shell (start : Shell.Starter) (c : Call) (t : FileTree) : Completion :=
  let rec go (strict : Bool) : List Word → Completion
    | ['-', 'e'] :: rest => go true rest
    | ['-', 'u'] :: rest => go strict rest
    | ['-', 'x'] :: rest => go strict rest
    | ['-', '-'] :: rest => go strict rest
    | ['-', 'c'] :: text :: rest =>
      let state := shellState c t (rest.headD c.name) rest.tail
      Shell.runScript start scriptFuel text { state with strict }
    | [] =>
      Shell.runScript start scriptFuel c.input
        { shellState c t c.name [] with strict, input := [] }
    | file :: rest =>
      match t.readFile c.directory file.toBytes with
      | .ok content =>
        Shell.runScript start scriptFuel (Word.ofBytes content)
          { shellState c t file rest with strict }
      | .error (.system e) =>
        if e = .isDirectory then finish t 0 [] []
        else
          let reason := if e = .noEntry then "No such file" else e.description
          let complaint := s!": 0: cannot open {Utf8.lossy file.toBytes}: {reason}\n"
          finish t 2 [] (c.name ++ Word.ofString complaint)
      | .error _ => finish t 2 [] []
  go false c.arguments

/-- The program `env`: sets variables and starts another program, or prints the environment. -/
def environmentProgram (start : Shell.Starter) (c : Call) (t : FileTree) : Completion :=
  let isSetting (w : Word) : Bool := w.contains '=' && w.head? ≠ some '-'
  let settings := (c.arguments.takeWhile isSetting).map fun w =>
    (w.takeWhile (· ≠ '='), (w.dropWhile (· ≠ '=')).drop 1)
  let environment := settings.foldl (fun vs (n, v) => (n, v) :: vs.filter (·.1 ≠ n)) c.environment
  match c.arguments.dropWhile isSetting with
  | [] => finish t 0 (environment.flatMap fun (n, v) => n ++ '=' :: v ++ ['\n']) []
  | name :: args =>
    let tries := if name.contains '/' then [name.toBytes]
      else (Shell.searchPath (environment.lookup "PATH".toList)).map (·.join name.toBytes)
    let found := tries.findSome? fun p =>
      match t.entry c.directory .follow p with
      | .ok (l, .file _ true) => some (p, l)
      | _ => none
    match found with
    | none => finish t 127 []
      (Word.ofString s!"env: {shown name}: No such file or directory\n")
    | some (p, l) =>
      match start l ⟨name, Word.ofBytes p, c.directory, environment, args, c.input⟩ t with
      | .ok done => done
      | .error e => finish t 126 [] (Word.ofString s!"env: {shown name}: {e.description}\n")

/-- Starts the program in a file. Native programs are known by their name, scripts run under the
    interpreter they name, and any other file is no program. -/
def start : Nat → Shell.Starter
  | 0, _, _, _ => .error .linkLoop
  | fuel + 1, l, c, t =>
    match t.get? l with
    | some (.file content true) =>
      if nativeMark.isPrefixOf content then
        match (l.head?.bind Bytes.toString?).getD "" with
        | "sh" | "dash" => .ok (shell (start fuel) c t)
        | "env" => .ok (environmentProgram (start fuel) c t)
        | name =>
          match utility? name with
          | some u => .ok (u.start c t)
          | none => .error .notExecutable
      else if scriptMark.isPrefixOf content then
        match interpreter? content with
        | none => .error .notExecutable
        | some (path, arguments) =>
          match t.entry c.directory .follow path with
          | .error (.system e) => .error e
          | .error _ => .error .noEntry
          | .ok (k, _) =>
            let arguments := (arguments.map Word.ofBytes) ++ c.path :: c.arguments
            start fuel k
              { c with name := Word.ofBytes path, path := Word.ofBytes path, arguments } t
      else .error .notExecutable
    | some _ => .error .denied
    | none => .error .noEntry

/-- How deep programs may start one another. -/
def startDepth : Nat := 40

def startPath (t : FileTree) (c : Call) : Except SystemError Completion :=
  match t.entry c.directory .follow c.path.toBytes with
  | .ok (l, _) => start startDepth l c t
  | .error (.system e) => .error e
  | .error _ => .error .noEntry

/-- Tries the paths in order. A file that may not be executed, or a path that leads nowhere, passes
    the turn to the next path. -/
def startFirst (t : FileTree) (c : Call) (denied : Bool) : List Word →
    Except SystemError Completion
  | [] => .error (if denied then .denied else .noEntry)
  | p :: rest =>
    match startPath t { c with path := p } with
    | .ok done => .ok done
    | .error e =>
      if e = .denied then startFirst t c true rest
      else if e = .noEntry ∨ e = .notDirectory then startFirst t c denied rest
      else .error e

structure Environment where
  directory : Location
  bindings : List (Word × Word)

/-- Runs programs on the machine. The working directory is entered first; then a name with a slash
    is a path, and any other name is looked up in the directories of `PATH`. -/
def launcher (e : Environment) : Launcher := fun t l =>
  let program := Bytes.ofString l.program
  if (program :: l.directory :: l.arguments).any (·.contains Bytes.nul) then .error .zeroByte
  else
    match t.entry e.directory .follow l.directory with
    | .error (.system e) => .error (.system e)
    | .error _ => .error .zeroByte
    | .ok (directory, .directory) =>
      let name := Word.ofBytes program
      let call : Call := {
        name, path := name, directory, environment := e.bindings
        arguments := l.arguments.map Word.ofBytes, input := [] }
      let result :=
        if program = [] then .error .noEntry
        else if program.contains Bytes.slash then startPath t call
        else if FileTree.nameLimit < program.length then .error .nameTooLong
        else
          let path := (e.bindings.lookup "PATH".toList).getD "/bin:/usr/bin".toList
          startFirst t call false ((Bytes.splitOn 0x3a path.toBytes).map fun d =>
            if d = [] then name else Word.ofBytes (d ++ Bytes.slash :: program))
      match result with
      | .ok done => .ok done
      | .error e => .error (.system e)
    | .ok _ => .error (.system .notDirectory)

/-- The machine's own files: the shell and the utilities. -/
def standardTree : FileTree :=
  let directory (t : FileTree) (p : String) : FileTree := (t.makePath [] (Bytes.ofString p)).1
  let t := ["/bin", "/usr/bin", "/dev", "/etc", "/home", "/root", "/tmp"].foldl directory
    FileTree.bare
  let bin : Location := [Bytes.ofString "bin"]
  let usrBin : Location := Bytes.ofString "bin" :: [Bytes.ofString "usr"]
  let t := t.put (Bytes.ofString "null") [Bytes.ofString "dev"] (.file [] false)
  (["sh", "dash", "env"] ++ utilities.map (·.name)).foldl (fun t name =>
    (t.put (Bytes.ofString name) bin (.file nativeMark true)).put (Bytes.ofString name) usrBin
      (.file nativeMark true)) t

end DocBuild.Machine
