import DocBuild.Toml.Document
import DocBuild.Toml.Literal

namespace DocBuild.Toml

/-- Digits of one kind with single underscores between them; the underscores are dropped. -/
def digitRun (isDigit : Char → Bool) : List Char → Option (List Char × List Char)
  | [] => none
  | c :: s =>
    if isDigit c then
      match s with
      | [] => some ([c], [])
      | d :: r =>
        if d = '_' then prepend c (digitRun isDigit r)
        else if isDigit d then prepend c (digitRun isDigit (d :: r))
        else some ([c], d :: r)
    else none

def ofDigits (base : Nat) (digits : List Char) : Nat :=
  digits.foldl (fun n d => n * base + (hexDigit? d).getD 0) 0

/-- A sign, when there is one: whether it is a minus, and the text behind it. -/
def sign : List Char → Bool × List Char
  | '-' :: s => (true, s)
  | '+' :: s => (false, s)
  | s => (false, s)

/-- A lone zero, or digits that do not begin with one. -/
def decimalPart : List Char → Option (List Char × List Char)
  | '0' :: s => some (['0'], s)
  | s => digitRun Char.isDigit s

/-- The integers of 64 bits. -/
def integer64? (n : Int) : Option Int :=
  if Int64.minValue.toInt ≤ n ∧ n ≤ Int64.maxValue.toInt then some n else none

/-- Decimal integers may be signed; those of base 16, 8 and 2 may not. -/
def integerLiteral : List Char → Option (Int × List Char)
  | '0' :: 'x' :: s => do
    let (ds, rest) ← digitRun (fun c => (hexDigit? c).isSome) s
    return (← integer64? (ofDigits 16 ds), rest)
  | '0' :: 'o' :: s => do
    let (ds, rest) ← digitRun (fun c => '0' ≤ c && c ≤ '7') s
    return (← integer64? (ofDigits 8 ds), rest)
  | '0' :: 'b' :: s => do
    let (ds, rest) ← digitRun (fun c => c = '0' || c = '1') s
    return (← integer64? (ofDigits 2 ds), rest)
  | s => do
    let (negative, s) := sign s
    let (ds, rest) ← decimalPart s
    let n : Int := ofDigits 10 ds
    return (← integer64? (if negative then -n else n), rest)

/-- A power of ten behind `e`. -/
def exponentPart : List Char → Option (Int × List Char)
  | e :: s =>
    if e = 'e' || e = 'E' then do
      let (negative, s) := sign s
      let (ds, rest) ← digitRun Char.isDigit s
      let n : Int := ofDigits 10 ds
      return (if negative then -n else n, rest)
    else none
  | [] => none

/-- A number with a fraction, an exponent or both. A positive number beyond the largest finite one
    is refused, a negative one counts as minus infinity. -/
def decimalFloat (s : List Char) : Option (Binary64 × List Char) := do
  let (negative, s) := sign s
  let (whole, s) ← decimalPart s
  let (fraction, exponent, rest) ←
    match s with
    | '.' :: s => do
      let (fraction, s) ← digitRun Char.isDigit s
      match exponentPart s with
      | some (e, rest) => some (fraction, e, rest)
      | none => some (fraction, 0, s)
    | s => (exponentPart s).map fun (e, rest) => ([], e, rest)
  let x := Binary64.ofDecimal negative (ofDigits 10 (whole ++ fraction))
    (exponent - fraction.length)
  if x = .infinite false then none else some (x, rest)

/-- `inf` and `nan`, each perhaps signed. -/
def specialFloat (s : List Char) : Option (Binary64 × List Char) :=
  let (negative, s) := sign s
  match s with
  | 'i' :: 'n' :: 'f' :: rest => some (.infinite negative, rest)
  | 'n' :: 'a' :: 'n' :: rest => some (.nan, rest)
  | _ => none

end DocBuild.Toml
