import DocBuild.Work
import DocBuild.Text.Trim

namespace DocBuild

inductive Locator where
  /-- A directory named by the user, relative to the place the search starts from. -/
  | given (root : Path)
  /-- The answer of a version control program. -/
  | asked (program : String)
  deriving DecidableEq, Repr

namespace Locator

def question : List Bytes :=
  ["rev-parse", "--show-toplevel"].map Bytes.ofString

/-- The path in a program's answer: everything but one final line break. -/
def answer? (output : Bytes) : Option Path :=
  match (output.dropFinal Bytes.newline).dropFinal Bytes.carriageReturn with
  | [] => none
  | path => some path

/-- A given root must be a directory, links followed. -/
def ofUser (root start : Path) : Work Path := do
  let c ← read
  let path := start.join root
  if (← Work.tree).isDirectoryPath c.directory path then return path
  else throw (.environment s!"repository root {path.display} is not a directory")

/-- Asks a version control program, run in the directory where the search starts. -/
def ofProgram (program : String) (start : Path) : Work Path := do
  Work.log ⟨.debug, .repository, "querying repository root",
    [("program", .text program), ("cwd", .text start.display)]⟩
  match (← read).launch (← Work.tree) ⟨program, question, start⟩ with
  | .error e =>
    throw (.environment s!"failed to run `{program}`: {e.message} (is it installed and on PATH?)")
  | .ok finished => do
    Work.setTree finished.tree
    if finished.ending.success then
      match answer? finished.output with
      | some path => return path
      | none => throw (.environment s!"`{program} rev-parse --show-toplevel` printed no path")
    else
      let complaint := Text.trim (Utf8.lossy finished.errors)
      throw (.environment s!"not inside a git repository ({start.display}): {complaint}")

def root : Locator → Path → Work Path
  | given root => ofUser root
  | asked program => ofProgram program

end Locator
end DocBuild
