import DocBuild.Failure
import DocBuild.FileTree.Removal
import DocBuild.Log
import DocBuild.Process
import DocBuild.Stage

namespace DocBuild

/-- What a command reports while it runs. -/
inductive Event where
  | stage (s : Stage)
  /-- A phase without a program of its own begins. -/
  | phase (title : String)
  /-- The documentation builder is about to take over the terminal. -/
  | builder (line : String)
  /-- A build has succeeded after so many stages. -/
  | done (stages : Nat)
  | log (r : LogRecord)
  /-- The documentation builder has printed. -/
  | output (b : Bytes)
  | errors (b : Bytes)
  deriving DecidableEq, Repr

/-- The part of the world that a command changes. -/
structure Session where
  tree : FileTree
  events : List Event := []

/-- The part of the world that a command finds and cannot change. -/
structure Context where
  /-- The working directory. -/
  directory : Location
  launch : Launcher
  /-- What deletions may fail of. -/
  obstacles : FileTree.Obstacles := FileTree.unobstructed

/-- Work on the tree that reports what it does and may fail. -/
abbrev Work := ReaderT Context (EStateM Failure Session)

namespace Work

def run {α : Type} (work : Work α) (c : Context) (s : Session) : EStateM.Result Failure Session α :=
  ReaderT.run work c s

def report (e : Event) : Work Unit :=
  modify fun s => { s with events := s.events ++ [e] }

def log (r : LogRecord) : Work Unit :=
  report (.log r)

def tree : Work FileTree :=
  return (← get).tree

def setTree (t : FileTree) : Work Unit :=
  modify fun s => { s with tree := t }

/-- A result that was computed without touching the session. -/
def ofExcept {α : Type} : Except Failure α → Work α
  | .ok a => pure a
  | .error e => throw e

/-- An operation that leaves a tree whether or not it succeeds, done on the path it is reported for.
    -/
def onTree {α : Type} (path : Path) (operation : FileTree → FileTree × Except FileError α) :
    Work α := do
  let (t, result) := operation (← tree)
  setTree t
  match result with
  | .ok a => return a
  | .error e => throw (.file path e)

end Work
end DocBuild
