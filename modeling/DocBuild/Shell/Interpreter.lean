import DocBuild.Shell.Program
import DocBuild.Shell.Reader
import DocBuild.Shell.Redirection

namespace DocBuild.Shell

/-- Runs a named command with arguments of its own. -/
def callFunction (body : Run Unit) (args : List Word) : Run Unit := do
  let before := (← get).positional
  let restore : Run Unit := modify fun s => { s with positional := before }
  modify fun s => { s with positional := args }
  tryCatch body fun
    | .returned => return ()
    | leave => do
      restore
      throw leave
  restore

/-- What a name with arguments does: a function, a builtin or a program. -/
def dispatch (start : Starter) (evaluate : Word → Run Unit) (invoke : Command → Run Unit)
    (name : Word) (args : List Word) : Run Unit := do
  let withoutFunctions (name : Word) (args : List Word) : Run Unit := do
    match builtin? evaluate (String.ofList name) args with
    | some action => action
    | none => setStatus (← runProgram start "" name args).status
  match String.ofList name, args with
  | "command", ['-', 'v'] :: name :: _ => describe name
  | "command", name :: args => withoutFunctions name args
  | "exec", name :: args => throw (.ended (← runProgram start "exec: " name args))
  | _, args =>
    match (← get).functions.lookup name with
    | some body => callFunction (invoke body) args
    | none => withoutFunctions name args

/-- Runs a simple command: assignments, redirections, then what its first word names. Redirections of
    `exec` without a command stay in force. -/
def runSimple (start : Starter) (output : Word → Run Word) (evaluate : Word → Run Unit)
    (invoke : Command → Run Unit) (assignments : List (Word × List Part))
    (words : List (List Part)) (rs : List Redirect) : Run Unit := do
  let args ← expandWords output words
  match args with
  | [] => do
    for (name, value) in assignments do
      assign name (← expandOne output value).plain
    setStatus 0
    discard (redirected output rs (return ()))
  | name :: args => do
    if name = "exec".toList && args.isEmpty then
      if ← redirect output rs then return (← setStatus 0) else throw (.ended (.exited 2))
    let before := (← get).bindings
    let exported := (← get).exported
    for (n, value) in assignments do
      assign n (← expandOne output value).plain
      modify fun s => { s with exported := n :: s.exported }
    let ok ← redirected output rs (dispatch start evaluate invoke name args)
    if !ok && specialBuiltins.contains (String.ofList name) then throw (.ended (.exited 2))
    if !assignments.isEmpty then modify fun s => { s with bindings := before, exported := exported }

/-- Ends a strict script at a failed command. -/
def enforce (checked : Bool) : Run Unit := do
  let s ← get
  if s.strict && !checked && s.status ≠ 0 then throw (.ended (.exited s.status))

/-- Runs in a copy of the shell: only the tree, the output and the status come back. -/
def isolated (body : Run Unit) : Run Unit := do
  let s ← get
  let back (t : State) (status : Nat) : State :=
    { s with tree := t.tree, output := t.output, errors := t.errors, input := t.input, status }
  match body.run s with
  | .ok _ t => set (back t t.status)
  | .error (.ended e) t => set (back t e.status)
  | .error _ t => set (back t t.status)

/-- The output of a body, which does not reach the shell's own output. -/
def captured (body : Run Unit) : Run Word := do
  let s ← get
  set { s with output := [], sink1 := .output }
  isolated body
  let t ← get
  set { t with output := s.output, sink1 := s.sink1 }
  return t.output

/-- One turn of a loop; answers whether another may follow. -/
def oneTurn (body : Run Unit) : Run Bool :=
  tryCatch (do body; return true) fun
    | .leaveLoop => return false
    | .nextTurn => return true
    | e => throw e

/-- Takes a turn for each value until a turn says to stop. -/
def forEachValue (turn : Word → Run Bool) : List Word → Run Unit
  | [] => return ()
  | v :: vs => do
    if ← turn v then forEachValue turn vs

/-- The body of the first case with a pattern that matches. -/
def chosen? (output : Word → Run Word) (value : Word) :
    List (List (List Part) × Command) → Run (Option Command)
  | [] => return none
  | (ps, body) :: rest => do
    let patterns ← ps.mapM (expandOne output)
    if patterns.any fun p => p.matches value then return some body
    else chosen? output value rest

/-- Runs a command. With `checked`, its failure is looked at by the command around it. -/
def runCommand (start : Starter) : Nat → Bool → Command → Run Unit
  | 0, _, _ => throw (.ended (.exited 2))
  | fuel + 1, checked, c =>
    let script (w : Word) : Run Unit := do
      let (cs, complete) := Shell.script w
      for c in cs do
        runCommand start fuel checked c
      if !complete then do
        shellComplaint "Syntax error"
        throw (.ended (.exited 2))
    let output (w : Word) : Run Word := do
      let text ← captured (script w)
      return (text.reverse.dropWhile (· = '\n')).reverse
    match c with
    | .simple as ws rs => do
      runSimple start output script (runCommand start fuel checked) as ws rs
      enforce checked
    | .pipe left right => do
      let text ← captured (runCommand start fuel true left)
      let s ← get
      set { s with input := text }
      isolated (runCommand start fuel true right)
      modify fun t => { t with input := s.input }
      enforce checked
    | .negated c => do
      runCommand start fuel true c
      setStatus (if (← get).status = 0 then 1 else 0)
    | .andThen a b => do
      runCommand start fuel true a
      if (← get).status = 0 then runCommand start fuel checked b
    | .orElse a b => do
      runCommand start fuel true a
      if (← get).status ≠ 0 then runCommand start fuel checked b
    | .sequence cs => do
      if cs.isEmpty then setStatus 0
      for c in cs do
        runCommand start fuel checked c
    | .branch test yes no => do
      runCommand start fuel true test
      if (← get).status = 0 then runCommand start fuel checked yes
      else do
        setStatus 0
        runCommand start fuel checked no
    | .loop negate test body => do
      runCommand start fuel true test
      if ((← get).status = 0) ≠ (negate = true) then do
        if ← oneTurn (runCommand start fuel checked body) then
          runCommand start fuel checked (.loop negate test body)
      else setStatus 0
    | .forEach name words body => do
      let values ← match words with
        | some ws => expandWords output ws
        | none => pure (← get).positional
      setStatus 0
      forEachValue (fun v => do
        assign name v
        oneTurn (runCommand start fuel checked body)) values
    | .choose word cases => do
      let value := (← expandOne output word).plain
      setStatus 0
      match ← chosen? output value cases with
      | some body => runCommand start fuel checked body
      | none => return ()
    | .group body rs => discard (redirected output rs (runCommand start fuel checked body))
    | .subshell body rs => do
      discard (redirected output rs (isolated (runCommand start fuel true body)))
      enforce checked
    | .define name body => do
      modify fun s => { s with functions := (name, body) :: s.functions, status := 0 }

/-- Runs the lines of a script; a syntax error is noticed when its line is reached. -/
def runLines (start : Starter) (fuel : Nat) (text : Word) : Run Unit := do
  let (cs, complete) := script text
  for c in cs do
    runCommand start fuel false c
  if !complete then do
    shellComplaint "Syntax error"
    throw (.ended (.exited 2))

/-- What a shell that has ended leaves. -/
def State.completion (s : State) (e : Ending) : Completion :=
  ⟨e, s.tree, s.output.toBytes, s.errors.toBytes⟩

/-- Runs a script to the end of the shell, and then what was set to run there. -/
def runScript (start : Starter) (fuel : Nat) (text : Word) (s : State) : Completion :=
  let (ending, s) : Ending × State := match (runLines start fuel text).run s with
    | .ok _ t => (.exited t.status, t)
    | .error (.ended e) t => (e, t)
    | .error _ t => (.exited t.status, t)
  match ending, s.traps.lookup 0 with
  | .exited status, some action =>
    match (runLines start fuel action).run { s with status } with
    | .error (.ended e) t => t.completion e
    | .ok _ t | .error _ t => t.completion ending
  | _, _ => s.completion ending

end DocBuild.Shell
