import DocBuild.Text.Utf8

namespace DocBuild

/-- The spelling of a path. -/
abbrev Path := Bytes

/-- A file name: a path segment other than the empty one, `.` and `..`. -/
abbrev Name := Bytes

namespace Path

open Bytes (slash dot)

/-- One step of a path. -/
inductive Component where
  | root
  /-- A `.` that begins a relative path; everywhere else a `.` is no component. -/
  | here
  | up
  | name (n : Name)
  deriving DecidableEq, Repr

def isAbsolute (p : Path) : Bool :=
  p.head? = some slash

/-- The texts between slashes. -/
def segments (p : Path) : List Bytes :=
  p.splitOn slash

/-- Empty segments and `.` do not count as steps. -/
def component? (segment : Bytes) : Option Component :=
  if segment = [] ∨ segment = [dot] then none
  else if segment = [dot, dot] then some .up
  else some (.name segment)

/-- A relative path that begins with the segment `.` keeps it as a component. -/
def beginsHere (p : Path) : Bool :=
  p.segments.head? = some [dot]

def components (p : Path) : List Component :=
  (if p.isAbsolute then [.root] else if p.beginsHere then [.here] else [])
    ++ p.segments.filterMap component?

/-- Places `q` below `p`; an absolute `q` stands for itself. Exactly one slash is supplied where `p`
    is not empty and does not end in one. -/
def join (p q : Path) : Path :=
  if q.isAbsolute then q
  else if p = [] ∨ p.getLast? = some slash then p ++ q
  else p ++ slash :: q

/-- Whether the components of `q` begin those of `p`. -/
def startsWith (p q : Path) : Bool :=
  q.components.isPrefixOf p.components

/-- Whether a segment contributes no component. -/
def isBlank (segment : Bytes) : Bool :=
  segment = [] || segment = [dot]

/-- The list without the elements at its end that pass a test. -/
def dropLastWhile {α : Type} (test : α → Bool) (xs : List α) : List α :=
  (xs.reverse.dropWhile test).reverse

/-- The path without its last component; the root and the empty path have no parent. Slashes and
    `.` segments before the removed component go with it, the rest keeps its spelling. -/
def parent? (p : Path) : Option Path :=
  let (head, body) : Path × Path :=
    if p.isAbsolute then ([slash], p.drop 1)
    else if p.beginsHere then ([dot], p.drop 1)
    else ([], p)
  match dropLastWhile isBlank body.segments with
  | [] => if p.isAbsolute || !p.beginsHere then none else some []
  | segments => some (head ++ Bytes.intercalate slash (dropLastWhile isBlank segments.dropLast))

def display (p : Path) : String :=
  Utf8.lossy p

end Path
end DocBuild
