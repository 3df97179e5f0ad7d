import DocBuild.Shell.Builtin

namespace DocBuild.Shell

/-- The directories that programs are looked up in. -/
def searchPath (value : Option Word) : List Path :=
  let value := (value.getD "/usr/local/sbin:/usr/local/bin:/usr/sbin:/usr/bin:/sbin:/bin".toList)
  (Bytes.splitOn 0x3a (Word.toBytes value)).map fun d => if d = [] then [Bytes.dot] else d

/-- What the shell finds under the name of a program. -/
inductive Found where
  | program (path : Path) (l : Location)
  | denied
  | missing

/-- A name with a slash is a path; any other is looked up in the directories of `PATH`. -/
def findProgram (s : State) (name : Word) : Found :=
  let at_ (p : Path) : Found :=
    match s.tree.entry s.directory .follow p with
    | .ok (l, .file _ true) => .program p l
    | .ok _ => .denied
    | .error _ => .missing
  if name.contains '/' then at_ name.toBytes
  else
    let tries := (searchPath (s.bindings.lookup "PATH".toList)).map fun d =>
      at_ (d.join name.toBytes)
    match tries.find? fun f => match f with
      | .program .. => true
      | _ => false with
    | some f => f
    | none =>
      if tries.any fun f => match f with
        | .denied => true
        | _ => false
      then .denied else .missing

/-- The variables that other programs are given. -/
def environmentOf (s : State) : List (Word × Word) :=
  s.bindings.filter fun v => s.exported.contains v.1

/-- Runs another program to its end and answers how it ended. Complaints begin with `mark`. -/
def runProgram (start : Starter) (mark : String) (name : Word) (args : List Word) : Run Ending := do
  let s ← get
  let fail (reason : String) (status : Nat) : Run Ending := do
    shellComplaint s!"{mark}{Utf8.lossy name.toBytes}: {reason}"
    return .exited status
  match findProgram s name with
  | .missing => fail "not found" 127
  | .denied => fail "Permission denied" 126
  | .program path l =>
    match start l ⟨name, Word.ofBytes path, s.directory, environmentOf s, args, s.input⟩ s.tree with
    | .error e => fail e.description 126
    | .ok c => do
      modify fun s => { s with tree := c.tree }
      print (Word.ofBytes c.output)
      complain (Word.ofBytes c.errors)
      return c.ending

/-- The commands that the shell finds without looking for a program. -/
def isBuiltin (name : String) : Bool :=
  (builtin? (fun _ => return ()) name []).isSome || name = "exec" || name = "command"

/-- Tells what a name would run. -/
def describe (name : Word) : Run Unit := do
  let s ← get
  if isBuiltin (String.ofList name) || (s.functions.lookup name).isSome then do
    print (name ++ ['\n'])
    setStatus 0
  else
    match findProgram s name with
    | .program path _ => do
      print (Word.ofBytes path ++ ['\n'])
      setStatus 0
    | _ => setStatus 127

end DocBuild.Shell
