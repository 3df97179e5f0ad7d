import DocBuild.Failure
import DocBuild.FileTree

namespace DocBuild

namespace Path

/-- The segments that a lookup takes: empty ones count only at the end, where a slash asks for a
    directory. -/
def steps (p : Path) : List Bytes :=
  let named := p.segments.filter (· ≠ [])
  if p.getLast? = some Bytes.slash then named ++ [[]] else named

def origin (p : Path) (cwd : Location) : Location :=
  if p.isAbsolute then [] else cwd

def staysHere (step : Bytes) : Bool :=
  step = [] || step = [Bytes.dot]

def goesUp (step : Bytes) : Bool :=
  step = [Bytes.dot, Bytes.dot]

end Path

namespace FileTree

/-- What happens at the last name of a path. -/
inductive Last where
  /-- A link there is followed. -/
  | follow
  /-- A link there is itself what the path names. -/
  | keep
  /-- A link there is followed, and a missing entry is one to be created. -/
  | create
  deriving DecidableEq, Repr

def nameLimit : Nat := 255

def pathLimit : Nat := 4095

/-- How many symbolic links one lookup follows. -/
def linkLimit : Nat := 40

/-- Where one step of a lookup leads. -/
inductive Move where
  /-- To a place, from which the remaining steps are taken. -/
  | enter (l : Location)
  /-- To a link that is to be followed. -/
  | follow (target : Path)
  deriving DecidableEq, Repr

/-- Takes one step from `here`, with the remaining steps in view. -/
def move (t : FileTree) (last : Last) (here : Location) (step : Bytes) (rest : List Bytes) :
    Except SystemError Move :=
  match t.get? here with
  | none => .error .noEntry
  | some (.file ..) | some (.link _) => .error .notDirectory
  | some .directory =>
    if Path.staysHere step then .ok (.enter here)
    else if Path.goesUp step then .ok (.enter here.tail)
    else if last = .create ∧ rest = [[]] then .error .isDirectory
    else if nameLimit < step.length then .error .nameTooLong
    else
      match t.get? (step :: here) with
      | none =>
        if last = .create ∧ rest = [] then .ok (.enter (step :: here)) else .error .noEntry
      | some (.link target) =>
        if last = .keep ∧ rest = [] then .ok (.enter (step :: here)) else .ok (.follow target)
      | some _ => .ok (.enter (step :: here))

/-- Takes steps one after the other; `follow` goes on behind a link. -/
def descend (t : FileTree) (last : Last)
    (follow : Location → Path → List Bytes → Except SystemError Location) :
    Location → List Bytes → Except SystemError Location
  | here, [] => .ok here
  | here, step :: rest =>
    match t.move last here step rest with
    | .error e => .error e
    | .ok (.enter l) => descend t last follow l rest
    | .ok (.follow target) => follow here target rest

/-- Takes the steps from `here`, following at most `links` links. -/
def walk (t : FileTree) (last : Last) : Nat → Location → List Bytes → Except SystemError Location
  | 0 => t.descend last fun _ _ _ => .error .linkLoop
  | links + 1 => t.descend last fun here target rest =>
    walk t last links (target.origin here) (target.steps ++ rest)

/-- Refuses paths that no lookup starts for. -/
def checkPath (p : Path) : Except FileError Unit :=
  if Bytes.nul ∈ p then .error .zeroByte
  else if pathLimit < p.length then .error (.system .nameTooLong)
  else if p = [] then .error (.system .noEntry)
  else .ok ()

/-- The location that a path names for a process working in `cwd`. -/
def locate (t : FileTree) (cwd : Location) (last : Last) (p : Path) :
    Except FileError Location := do
  checkPath p
  (t.walk last linkLimit (p.origin cwd) p.steps).mapError .system

def entry (t : FileTree) (cwd : Location) (last : Last) (p : Path) :
    Except FileError (Location × Entry) := do
  let l ← t.locate cwd last p
  match t.get? l with
  | some e => return (l, e)
  | none => throw (.system .noEntry)

/-- Whether a path names anything, links followed. -/
def pathExists (t : FileTree) (cwd : Location) (p : Path) : Bool :=
  (t.entry cwd .follow p).isOk

/-- Whether a path names a directory, links followed. -/
def isDirectoryPath (t : FileTree) (cwd : Location) (p : Path) : Bool :=
  match t.entry cwd .follow p with
  | .ok (_, .directory) => true
  | _ => false

/-- How a path ends, for the operations that change the directory it leads into. -/
inductive FinalStep where
  /-- There is nothing but the root. -/
  | root
  | here
  | up
  /-- A name, perhaps with a slash behind it. -/
  | name (n : Name) (slash : Bool)
  deriving DecidableEq, Repr

/-- The directory that the last step of a path is taken in, and that step. -/
def parentOf (t : FileTree) (cwd : Location) (p : Path) :
    Except FileError (Location × FinalStep) := do
  checkPath p
  let named := p.steps.filter (· ≠ [])
  match named.getLast? with
  | none => return ([], .root)
  | some last => do
    let l ← (t.walk .follow linkLimit (p.origin cwd) named.dropLast).mapError .system
    match t.get? l with
    | some .directory =>
      if Path.staysHere last then return (l, .here)
      else if Path.goesUp last then return (l, .up)
      else if nameLimit < last.length then throw (.system .nameTooLong)
      else return (l, .name last (p.getLast? = some Bytes.slash))
    | some _ => throw (.system .notDirectory)
    | none => throw (.system .noEntry)

end FileTree
end DocBuild
