import DocBuild.Machine.Call
import DocBuild.Shell.Script

namespace DocBuild.Shell

open Machine (Call)

inductive Sink where
  | output
  | errors
  | file (l : Location)
  | nowhere
  deriving DecidableEq

structure State where
  tree : FileTree
  directory : Location
  bindings : List (Word × Word)
  exported : List Word
  name : Word
  positional : List Word
  input : Word
  output : Word := []
  errors : Word := []
  sink1 : Sink := .output
  sink2 : Sink := .errors
  status : Nat := 0
  /-- Whether a failing command ends the script. -/
  strict : Bool := false
  /-- The line of the script that is reported with complaints. -/
  line : Nat := 1
  /-- Commands that the script has given names. -/
  functions : List (Word × Command) := []
  /-- What to run when a signal arrives, by its number, or under 0 when the shell ends. -/
  traps : List (Nat × Word) := []

/-- Why the commands that follow are not run. -/
inductive Leave where
  | ended (e : Ending)
  | leaveLoop
  | nextTurn
  | returned

/-- A step of a script. -/
abbrev Run := EStateM Leave State

/-- Starts another program: its name as looked up by the caller, and what it is given. -/
abbrev Starter := Location → Call → FileTree → Except SystemError Completion

/-- Records how the last command ended. -/
def setStatus (n : Nat) : Run Unit :=
  modify fun s => { s with status := n }

/-- Writes to a sink; a file is written at its end. -/
def emit (sink : Sink) (w : Word) : Run Unit :=
  modify fun s =>
    match sink with
    | .output => { s with output := s.output ++ w }
    | .errors => { s with errors := s.errors ++ w }
    | .nowhere => s
    | .file l =>
      match l, s.tree.get? l with
      | n :: k, some (.file content executable) =>
        { s with tree := s.tree.put n k (.file (content ++ w.toBytes) executable) }
      | _, _ => s

/-- Writes to the first output descriptor. -/
def print (w : Word) : Run Unit := do emit (← get).sink1 w

/-- Writes to the second output descriptor. -/
def complain (w : Word) : Run Unit := do emit (← get).sink2 w

/-- A complaint of the shell itself. -/
def shellComplaint (message : String) : Run Unit := do
  let s ← get
  complain (s.name ++ Word.ofString s!": {s.line}: {message}\n")

/-- The value of a variable that is set. -/
def valueOf? (name : Word) : Run (Option Word) := do
  return (← get).bindings.lookup name

def assign (name value : Word) : Run Unit :=
  modify fun s => { s with bindings := (name, value) :: s.bindings.filter (·.1 ≠ name) }

/-- The number of the shell's own process. -/
def processNumber : Nat := 4242

def decimal (n : Nat) : Word := Nat.toDigits 10 n

/-- The value of a parameter other than the list of arguments. -/
def parameter? (name : Word) : Run (Option Word) := do
  let s ← get
  match name with
  | ['#'] => return some (decimal s.positional.length)
  | ['?'] => return some (decimal s.status)
  | ['$'] => return some (decimal processNumber)
  | ['!'] => return none
  | ['-'] => return some (if s.strict then ['e'] else [])
  | ['@'] | ['*'] => return some ([' '].intercalate s.positional)
  | ['0'] => return some s.name
  | c :: _ =>
    if c.isDigit then return s.positional[(String.ofList name).toNat?.getD 0 - 1]?
    else valueOf? name
  | [] => return none

end DocBuild.Shell
