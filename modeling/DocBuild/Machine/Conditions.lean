import DocBuild.Machine.Call

namespace DocBuild.Machine

open Shell (Word)

structure Surroundings where
  tree : FileTree
  directory : Location

namespace Surroundings

/-- What a path denotes, if anything. -/
def entry? (s : Surroundings) (last : FileTree.Last) (w : Word) : Option Entry :=
  match s.tree.entry s.directory last w.toBytes with
  | .ok (_, e) => some e
  | .error _ => none

def unary (s : Surroundings) (op : String) (w : Word) : Option Bool :=
  let target := s.entry? .follow w
  match op with
  | "-n" => some !w.isEmpty
  | "-z" => some w.isEmpty
  | "-e" | "-r" | "-w" => some target.isSome
  | "-d" => some (target = some .directory)
  | "-f" => some (match target with
    | some (.file ..) => true
    | _ => false)
  | "-s" => some (match target with
    | some (.file content _) => !content.isEmpty
    | some _ => true
    | none => false)
  | "-x" => some (match target with
    | some (.file _ executable) => executable
    | some _ => true
    | none => false)
  | "-h" | "-L" => some (match s.entry? .keep w with
    | some (.link _) => true
    | _ => false)
  | "-t" | "-p" | "-S" | "-b" | "-c" => some false
  | _ => none

private def integer? (w : Word) : Option Int :=
  (String.ofList w).trimAscii.toString.toInt?

def binary (a : Word) (op : String) (b : Word) : Option Bool :=
  let numbers (test : Int → Int → Bool) : Option Bool := do
    return test (← integer? a) (← integer? b)
  match op with
  | "=" | "==" => some (a = b)
  | "!=" => some (a ≠ b)
  | "-eq" => numbers (· == ·)
  | "-ne" => numbers (· != ·)
  | "-lt" => numbers fun x y => x < y
  | "-le" => numbers fun x y => x ≤ y
  | "-gt" => numbers fun x y => x > y
  | "-ge" => numbers fun x y => x ≥ y
  | _ => none

/-- The value of a condition; nothing when it is no condition. -/
def holds (s : Surroundings) : Nat → List Word → Option Bool
  | 0, _ => none
  | fuel + 1, ws =>
    match ws with
    | [] => some false
    | [w] => some !w.isEmpty
    | [['!'], w] => some w.isEmpty
    | [op, w] => s.unary (String.ofList op) w
    | ['!'] :: rest => (s.holds fuel rest).map (!·)
    | [a, op, b] =>
      match binary a (String.ofList op) b with
      | some v => some v
      | none => connected fuel ws
    | _ => connected fuel ws
where
  /-- The parts of a condition joined by `-o`, then by `-a`. -/
  connected (fuel : Nat) (ws : List Word) : Option Bool :=
    let split (op : Word) : Option (List Word × List Word) :=
      if ws.contains op then
        some (ws.takeWhile (· ≠ op), (ws.dropWhile (· ≠ op)).drop 1)
      else none
    match split ['-', 'o'] with
    | some (a, b) => do return (← s.holds fuel a) || (← s.holds fuel b)
    | none =>
      match split ['-', 'a'] with
      | some (a, b) => do return (← s.holds fuel a) && (← s.holds fuel b)
      | none => none

end Surroundings

/-- The status of a condition: 0 when it holds, 1 when not, 2 when it is none. -/
def conditionStatus (t : FileTree) (directory : Location) (ws : List Word) : Nat :=
  match (Surroundings.mk t directory).holds (ws.length + 1) ws with
  | some true => 0
  | some false => 1
  | none => 2

end DocBuild.Machine
