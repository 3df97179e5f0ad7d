import DocBuild.Text.Bytes

namespace DocBuild.Shell

/-- A byte string, each byte as the character of its number. -/
abbrev Word := List Char

def Word.ofBytes (b : Bytes) : Word :=
  b.map fun x => Char.ofNat x.toNat

/-- The byte string of a word; on a word of bytes it undoes `Word.ofBytes`. -/
def Word.toBytes (w : Word) : Bytes :=
  w.map fun c => UInt8.ofNat c.toNat

def Word.ofString (s : String) : Word :=
  Word.ofBytes (Bytes.ofString s)

/-- Characters that a variable name may begin with. -/
def isNameStart (c : Char) : Bool := c.isAlpha || c = '_'

/-- Characters that a variable name may go on with. -/
def isNameChar (c : Char) : Bool := c.isAlphanum || c = '_'

/-- What a parameter stands for when it is unset, or set, or empty. -/
inductive Alternative where
  | whenUnset
  | assign
  | whenSet
  | complain
  deriving DecidableEq, Repr

/-- A piece of a word before expansion. What is quoted is neither split nor matched against names.
    -/
inductive Part where
  | text (s : Word) (quoted : Bool)
  | parameter (name : Word) (quoted : Bool)
  /-- With `colon`, an empty value counts as unset. -/
  | alternative (name : Word) (colon : Bool) (kind : Alternative) (word : List Part) (quoted : Bool)
  /-- The value without the shortest or longest match of a pattern at one end. -/
  | trimmed (name : Word) (atEnd longest : Bool) (pattern : List Part) (quoted : Bool)
  | length (name : Word) (quoted : Bool)
  /-- The output of another script. -/
  | output (script : Word) (quoted : Bool)
  /-- The value of an integer expression. -/
  | arithmetic (expression : List Part) (quoted : Bool)

inductive RedirectKind where
  | read
  | write
  | append
  | duplicate
  /-- Reads what is written in the script itself. -/
  | here
  deriving DecidableEq, Repr

structure Redirect where
  descriptor : Nat
  kind : RedirectKind
  target : List Part

/-- Commands as the grammar puts them together. -/
inductive Command where
  | simple (assignments : List (Word × List Part)) (words : List (List Part))
      (redirects : List Redirect)
  | pipe (left right : Command)
  | negated (c : Command)
  | andThen (first second : Command)
  | orElse (first second : Command)
  | sequence (cs : List Command)
  | branch (test yes no : Command)
  /-- Runs the body while the test succeeds, or with `negate` while it fails. -/
  | loop (negate : Bool) (test body : Command)
  | forEach (name : Word) (words : Option (List (List Part))) (body : Command)
  | choose (word : List Part) (cases : List (List (List Part) × Command))
  | group (body : Command) (redirects : List Redirect)
  | subshell (body : Command) (redirects : List Redirect)
  | define (name : Word) (body : Command)

end DocBuild.Shell
