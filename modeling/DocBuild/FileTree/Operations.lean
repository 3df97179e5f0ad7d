import DocBuild.FileTree.Lookup

namespace DocBuild.FileTree

/-- Creates one directory. Its parent must be there and the name must be free. -/
def makeDirectory (t : FileTree) (cwd : Location) (p : Path) : Except FileError FileTree := do
  match ← t.parentOf cwd p with
  | (l, .name n _) =>
    if (t.get? (n :: l)).isSome then throw (.system .alreadyExists)
    else return t.put n l .directory
  | _ => throw (.system .alreadyExists)

def makeLink (t : FileTree) (cwd : Location) (target p : Path) : Except FileError FileTree := do
  if Bytes.nul ∈ target then throw .zeroByte
  if target = [] then throw (.system .noEntry)
  match ← t.parentOf cwd p with
  | (l, .name n slash) =>
    if (t.get? (n :: l)).isSome then throw (.system .alreadyExists)
    else if slash then throw (.system .noEntry)
    else return t.put n l (.link target)
  | _ => throw (.system .alreadyExists)

def removeDirectory (t : FileTree) (cwd : Location) (p : Path) : Except FileError FileTree := do
  match ← t.parentOf cwd p with
  | (_, .root) => throw (.system .busy)
  | (_, .here) => throw (.system .invalid)
  | (_, .up) => throw (.system .notEmpty)
  | (l, .name n _) =>
    match t.get? (n :: l) with
    | none => throw (.system .noEntry)
    | some .directory =>
      if t.isEmptyDirectory (n :: l) then return t.prune (n :: l)
      else throw (.system .notEmpty)
    | some _ => throw (.system .notDirectory)

def removeFile (t : FileTree) (cwd : Location) (p : Path) : Except FileError FileTree := do
  match ← t.parentOf cwd p with
  | (l, .name n slash) =>
    match t.get? (n :: l) with
    | none => throw (.system .noEntry)
    | some .directory => throw (.system .isDirectory)
    | some _ => if slash then throw (.system .notDirectory) else return t.prune (n :: l)
  | _ => throw (.system .isDirectory)

/-- Gives a file new content; a missing file is created, also where a dangling link points. -/
def writeFile (t : FileTree) (cwd : Location) (p : Path) (content : Bytes) :
    Except FileError FileTree := do
  match ← t.locate cwd .create p with
  | [] => throw (.system .isDirectory)
  | n :: l =>
    match t.get? (n :: l) with
    | none => return t.put n l (.file content false)
    | some (.file _ executable) => return t.put n l (.file content executable)
    | some _ => throw (.system .isDirectory)

def readFile (t : FileTree) (cwd : Location) (p : Path) : Except FileError Bytes := do
  match ← t.entry cwd .follow p with
  | (_, .file content _) => return content
  | _ => throw (.system .isDirectory)

def readText (t : FileTree) (cwd : Location) (p : Path) : Except FileError String := do
  match (← t.readFile cwd p).toString? with
  | some s => return s
  | none => throw .notText

/-- A path and its lexical ancestors, the nearest first. -/
def lineage (p : Path) : List Path :=
  let rec go : Nat → Path → List Path
    | 0, p => [p]
    | fuel + 1, p =>
      match p.parent? with
      | some q => p :: go fuel q
      | none => [p]
  go p.length p

/-- Creates the first of the given directories, and those behind it as far as they are missing. What
    was created before a failure stays. -/
def makeDirectories (cwd : Location) : List Path → FileTree → FileTree × Except FileError Unit
  | [], t => (t, .ok ())
  | p :: ancestors, t =>
    if p = [] then (t, .ok ())
    else
      match t.makeDirectory cwd p with
      | .ok t => (t, .ok ())
      | .error e =>
        if e.isMissing then
          match makeDirectories cwd ancestors t with
          | (t, .error e) => (t, .error e)
          | (t, .ok ()) =>
            match t.makeDirectory cwd p with
            | .ok t => (t, .ok ())
            | .error e => if t.isDirectoryPath cwd p then (t, .ok ()) else (t, .error e)
        else if t.isDirectoryPath cwd p then (t, .ok ())
        else (t, .error e)

/-- Creates a directory with its lexical ancestors. -/
def makePath (t : FileTree) (cwd : Location) (p : Path) : FileTree × Except FileError Unit :=
  makeDirectories cwd (lineage p) t

end DocBuild.FileTree
