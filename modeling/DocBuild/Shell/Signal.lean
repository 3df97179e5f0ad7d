import DocBuild.Shell.State

namespace DocBuild.Shell

/-- The number of a signal by name or number. -/
def signal? (w : Word) : Option Nat :=
  let names := ["HUP", "INT", "QUIT", "ILL", "TRAP", "ABRT", "BUS", "FPE", "KILL", "USR1", "SEGV",
    "USR2", "PIPE", "ALRM", "TERM", "STKFLT", "CHLD", "CONT", "STOP", "TSTP", "TTIN", "TTOU", "URG",
    "XCPU", "XFSZ", "VTALRM", "PROF", "WINCH", "IO", "PWR", "SYS"]
  let text := String.ofList w
  match names.findIdx? (· = text) with
  | some i => some (i + 1)
  | none => (text.toNat?).bind fun n => if n ≤ 64 then some n else none

/-- Whether a signal ends a process that does not handle it. -/
def isDeadly (signal : Nat) : Bool :=
  1 ≤ signal && signal ≤ 64 && !(17 ≤ signal && signal ≤ 23) && signal ≠ 28

/-- The number under which a trap is kept. -/
def trapNumber? (w : Word) : Option Nat :=
  if w = "EXIT".toList then some 0 else signal? w

/-- Says what to run when a signal arrives or the shell ends; nothing to run means that the signal
    is ignored, and a hyphen brings the usual effect back. -/
def trap (args : List Word) : Run Unit := do
  let (action, names) : Option Word × List Word := match args with
    | ['-'] :: names => (none, names)
    | [name] => (none, [name])
    | action :: names => (some action, names)
    | [] => (none, [])
  for name in names do
    if let some n := trapNumber? name then
      modify fun s => { s with traps := (action.toList.map (n, ·)) ++ s.traps.filter (·.1 ≠ n) }
  setStatus 0

/-- Sends a signal to the processes named; the shell knows itself only. A signal without a trap has
    its usual effect, and the strongest one cannot be trapped. -/
def kill (evaluate : Word → Run Unit) (args : List Word) : Run Unit := do
  let (signal, targets) := match args with
    | ['-', 's'] :: name :: rest => (signal? name, rest)
    | ('-' :: name) :: rest => (signal? name, rest)
    | rest => (some 15, rest)
  match signal with
  | none => do
    shellComplaint "kill: invalid signal number or name"
    setStatus 2
  | some n =>
    if targets.contains (decimal processNumber) then
      let traps := (← get).traps
      match if n = 9 then none else traps.lookup n with
      | some action => do
        setStatus 0
        evaluate action
        setStatus 0
      | none => if isDeadly n then throw (.ended (.killed n)) else setStatus 0
    else do
      shellComplaint "kill: No such process"
      setStatus 1

end DocBuild.Shell
