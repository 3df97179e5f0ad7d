import DocBuild.FileTree.Removal
import DocBuild.Process
import DocBuild.Shell.Script

namespace DocBuild.Machine

open Shell (Word)

structure Call where
  /-- The name the program goes by. -/
  name : Word
  /-- The path under which its file was found. -/
  path : Word
  directory : Location
  environment : List (Word × Word)
  /-- The arguments behind the program's own name. -/
  arguments : List Word
  input : Word

def Call.value? (c : Call) (name : String) : Option Word :=
  c.environment.lookup name.toList

def finish (t : FileTree) (status : Nat) (output errors : Word) : Completion :=
  ⟨.exited status, t, output.toBytes, errors.toBytes⟩

/-- What a run of several operations has done so far. -/
structure Progress where
  tree : FileTree
  status : Nat := 0
  output : Word := []
  errors : Word := []

namespace Progress

def print (p : Progress) (w : Word) : Progress :=
  { p with output := p.output ++ w }

/-- Adds a line of complaint, which makes the run a failure. -/
def complain (p : Progress) (line : Word) : Progress :=
  { p with status := 1, errors := p.errors ++ line ++ ['\n'] }

/-- Takes over the tree of an operation, or complains about its failure. -/
def after (p : Progress) (result : Except FileError FileTree) (complaint : String) : Progress :=
  match result with
  | .ok t => { p with tree := t }
  | .error e =>
    let reason := match e with
      | .system e => e.description
      | e => e.message
    p.complain (Word.ofString (complaint ++ ": " ++ reason))

def finish (p : Progress) : Completion :=
  Machine.finish p.tree p.status p.output p.errors

end Progress

/-- Splits arguments into option letters and operands. Two hyphens end the options. -/
def options : List Word → List Char × List Word
  | [] => ([], [])
  | ['-', '-'] :: rest => ([], rest)
  | ('-' :: c :: cs) :: rest =>
    let (flags, operands) := options rest
    (if c = '-' then flags else c :: cs ++ flags, operands)
  | w :: rest =>
    let (flags, operands) := options rest
    (flags, w :: operands)

def shown (w : Word) : String :=
  "'" ++ Utf8.lossy w.toBytes ++ "'"

end DocBuild.Machine
