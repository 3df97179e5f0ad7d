import DocBuild.FileTree.Operations

namespace DocBuild.FileTree

/-- A deletion that the operating system cuts short. -/
structure Interruption where
  error : SystemError
  /-- What cannot be deleted has been found. -/
  found : error ≠ .noEntry
  /-- The places that were deleted before, each with everything in it. -/
  gone : List Location

/-- The tree in which a deletion at `l` was cut short; `l` itself is still there. -/
def Interruption.leave (i : Interruption) (t : FileTree) (l : Location) : FileTree :=
  (i.gone.filter (below l)).foldl prune t

/-- What stands in the way of deleting the entry at a location with everything in it: permissions or
    mounts, for instance. -/
abbrev Obstacles := FileTree → Location → Option Interruption

def unobstructed : Obstacles :=
  fun _ _ => none

/-- Removes what the path names; answers whether there was anything. A directory is emptied first,
    and then removed by a second lookup of the same path. If that lookup finds nothing any more,
    because the path led through what was just removed, the removal is complete. A directory that
    was emptied and then cannot be removed stays behind empty. -/
def removeForced (t : FileTree) (obstacles : Obstacles) (cwd : Location) (p : Path) :
    FileTree × Except FileError Bool :=
  match t.entry cwd .keep p with
  | .error e => if e.isMissing then (t, .ok false) else (t, .error e)
  | .ok (l, found) =>
    match obstacles t l, found with
    | some i, _ => (i.leave t l, .error (.system i.error))
    | none, .directory =>
      let emptied := t.clear l
      match emptied.removeDirectory cwd p with
      | .ok t => (t, .ok true)
      | .error e => if e.isMissing then (emptied, .ok true) else (emptied, .error e)
    | none, _ =>
      match t.removeFile cwd p with
      | .ok t => (t, .ok true)
      | .error e => if e.isMissing then (t, .ok false) else (t, .error e)

end DocBuild.FileTree
