import DocBuild.Shell.Script

namespace DocBuild.Shell

/-- A word after expansion: each character with whether it was quoted. -/
abbrev Marked := List (Char × Bool)

def Marked.plain (m : Marked) : Word :=
  m.map (·.1)

/-- Whether any character of a word makes it a pattern. -/
def Marked.isPattern (m : Marked) : Bool :=
  m.any fun (c, quoted) => !quoted && (c = '*' || c = '?' || c = '[')

/-- The characters of a bracket expression up to its end. -/
private def bracket : Marked → Option (Marked × Marked)
  | [] => none
  | (']', false) :: rest => some ([], rest)
  | m :: rest => (bracket rest).map fun (ms, r) => (m :: ms, r)

/-- Whether the set of a bracket expression holds a character. -/
private def holds (c : Char) : Marked → Bool
  | (a, _) :: ('-', false) :: (b, _) :: rest => (a ≤ c && c ≤ b) || holds c rest
  | (a, _) :: rest => a = c || holds c rest
  | [] => false

/-- Whether a pattern matches the whole of a text. -/
def matchesPattern : Nat → Marked → Word → Bool
  | 0, _, _ => false
  | _ + 1, [], s => s.isEmpty
  | fuel + 1, (c, quoted) :: p, s =>
    if !quoted && c = '*' then
      matchesPattern fuel p s || match s with
        | [] => false
        | _ :: s => matchesPattern fuel ((c, quoted) :: p) s
    else
      match s with
      | [] => false
      | d :: r =>
        if !quoted && c = '?' then matchesPattern fuel p r
        else if !quoted && c = '[' then
          match bracket p with
          | some (('!', false) :: set, p) => !holds d set && matchesPattern fuel p r
          | some (set, p) => holds d set && matchesPattern fuel p r
          | none => d = c && matchesPattern fuel p r
        else d = c && matchesPattern fuel p r

def Marked.matches (p : Marked) (s : Word) : Bool :=
  matchesPattern (p.length + s.length + 1) p s

end DocBuild.Shell
