import DocBuild.Toml.Literal

namespace DocBuild.Toml

/-- A number of exactly `count` digits. -/
def fixedDigits (count : Nat) (s : List Char) : Option (Nat × List Char) :=
  let ds := s.take count
  if ds.length = count && ds.all Char.isDigit then
    some (ds.foldl (fun n d => n * 10 + (d.toNat - '0'.toNat)) 0, s.drop count)
  else none

private def mark (c : Char) : List Char → Option (List Char)
  | d :: s => if d = c then some s else none
  | [] => none

private def bounded (low high : Nat) (s : List Char) : Option (Nat × List Char) := do
  let (n, rest) ← fixedDigits 2 s
  if low ≤ n ∧ n ≤ high then some (n, rest) else none

/-- The length of a month in the Gregorian calendar. -/
def daysInMonth (year month : Nat) : Nat :=
  if month = 2 then
    if year % 4 = 0 ∧ (year % 100 ≠ 0 ∨ year % 400 = 0) then 29 else 28
  else if month = 4 ∨ month = 6 ∨ month = 9 ∨ month = 11 then 30
  else 31

/-- `YYYY-MM-DD`, a day that the calendar has. -/
def date? (s : List Char) : Option (List Char) := do
  let (year, s) ← fixedDigits 4 s
  let (month, s) ← bounded 1 12 (← mark '-' s)
  let (_, s) ← bounded 1 (daysInMonth year month) (← mark '-' s)
  return s

/-- `HH:MM:SS` with an optional fraction; a leap second is allowed. -/
def time? (s : List Char) : Option (List Char) := do
  let (_, s) ← bounded 0 23 s
  let (_, s) ← bounded 0 59 (← mark ':' s)
  let (_, s) ← bounded 0 60 (← mark ':' s)
  match s with
  | '.' :: r =>
    match r.takeWhile Char.isDigit with
    | [] => none
    | _ => return r.dropWhile Char.isDigit
  | _ => return s

/-- `Z`, or a signed distance from it in hours and minutes. -/
def offset? : List Char → Option (List Char)
  | c :: s =>
    if c = 'Z' ∨ c = 'z' then some s
    else if c = '+' ∨ c = '-' then do
      let (_, s) ← bounded 0 23 s
      let (_, s) ← bounded 0 59 (← mark ':' s)
      return s
    else none
  | [] => none

/-- The text behind a date, a time, or a date with a time. -/
def dateTime? (s : List Char) : Option (List Char) :=
  match date? s with
  | none => time? s
  | some rest =>
    match rest with
    | c :: r =>
      if c = 'T' ∨ c = 't' ∨ c = ' ' then
        match time? r with
        | none => some rest
        | some r => some ((offset? r).getD r)
      else some rest
    | [] => some rest

end DocBuild.Toml
