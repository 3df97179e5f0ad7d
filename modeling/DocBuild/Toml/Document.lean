import DocBuild.Number.Binary64

namespace DocBuild.Toml

/-- A stretch of the document, by the number of characters that remain at its first character and
    behind its last one. -/
structure Span where
  start : Nat
  stop : Nat
  deriving DecidableEq, Repr

/-- One segment of a dotted key. -/
structure Key where
  text : String
  span : Span
  deriving DecidableEq, Repr

/-- A thing with the place it was written at, when it was written at one. -/
structure Located (α : Type) where
  span : Option Span
  item : α
  deriving Repr

/-- How a table came to be, which decides who may still add to it. -/
inductive TableKind where
  /-- By a header of its own. -/
  | header
  /-- By a longer header that passes through it; a header of its own may follow. -/
  | implied
  /-- By a dotted key that passes through it; more dotted keys may follow. -/
  | dotted
  /-- Between braces, complete at once. -/
  | inline
  deriving DecidableEq, Repr

inductive Value where
  | string (text : String)
  | integer (n : Int)
  | float (x : Binary64)
  | boolean (b : Bool)
  | dateTime
  | array (items : List (Located Value))
  /-- An array of tables, one for each of its headers. -/
  | tables (rows : List (Option Span × List (Key × Located Value)))
  | table (kind : TableKind) (entries : List (Key × Located Value))

/-- A value and where it stands. -/
abbrev Node := Located Value

/-- The contents of a table, in order. -/
abbrev Entries := List (Key × Node)

namespace Entries

def get? (entries : Entries) (text : String) : Option Node :=
  (entries.find? fun e => e.1.text = text).map (·.2)

def contains (entries : Entries) (text : String) : Bool :=
  entries.any fun e => e.1.text = text

def erase (entries : Entries) (text : String) : Entries :=
  entries.filter fun e => e.1.text ≠ text

/-- Gives an existing key another value, at its old place. -/
def replace (entries : Entries) (text : String) (node : Node) : Entries :=
  entries.map fun e => if e.1.text = text then (e.1, node) else e

end Entries
end DocBuild.Toml
