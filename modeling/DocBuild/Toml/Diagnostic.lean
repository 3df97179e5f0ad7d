import DocBuild.Toml.Document
import DocBuild.Text.Quoted

namespace DocBuild.Toml

/-- A value was found where another kind of value is needed. -/
structure Mismatch where
  span : Option Span
  found : String
  expected : String
  deriving DecidableEq, Repr

/-- How a report names a value. Dates and times count as tables. -/
def Value.describe : Value → String
  | .string s => "string " ++ Text.quoted s
  | .integer n => s!"integer `{n}`"
  | .float x => s!"floating point `{x.text}`"
  | .boolean b => s!"boolean `{b}`"
  | .array _ | .tables _ => "sequence"
  | .dateTime | .table .. => "map"

namespace Mismatch

/-- The text of a mismatch. -/
def message (m : Mismatch) : String :=
  s!"invalid type: {m.found}, expected {m.expected}"

private def spaces (n : Nat) : List Char := List.replicate n ' '

/-- The line and column of the value, the line itself, and a row of carets below the part of it that
    the value takes; every part of a line is counted in characters, except that the row is cut to
    the line's length in bytes. -/
def report (m : Mismatch) (text : List Char) : String :=
  let span := m.span.getD ⟨text.length, text.length⟩
  let before := text.take (text.length - span.start)
  let line := before.count '\n' + 1
  let column := (before.reverse.takeWhile (· ≠ '\n')).length + 1
  let behind := text.drop (before.length - (column - 1))
  let source := behind.takeWhile (· ≠ '\n')
  let size (cs : List Char) : Nat := (String.ofList cs).utf8ByteSize
  let spanned := (text.drop before.length).take (span.start - span.stop)
  let carets := max 1 (min (size spanned) (size source - (column - 1)))
  let number := toString line
  let gutter := spaces (number.length + 1)
  let rows : List (List Char) := [
    s!"TOML parse error at line {line}, column {column}".toList,
    gutter ++ ['|'],
    number.toList ++ " | ".toList ++ source,
    gutter ++ ['|'] ++ spaces column ++ List.replicate carets '^',
    m.message.toList]
  String.ofList (rows.flatMap (· ++ ['\n']))

end Mismatch
end DocBuild.Toml
