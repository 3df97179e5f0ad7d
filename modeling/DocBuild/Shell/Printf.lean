import DocBuild.Shell.Script

namespace DocBuild.Shell

def octalValue? (c : Char) : Option Nat :=
  if '0' ≤ c ∧ c ≤ '7' then some (c.toNat - '0'.toNat) else none

/-- At most `count` octal digits and the number they write, modulo the size of a byte. -/
def octal (count : Nat) (s : List Char) : Nat × List Char :=
  let ds := (s.take count).takeWhile fun c => (octalValue? c).isSome
  ((ds.foldl (fun n c => n * 8 + (octalValue? c).getD 0) 0) % 256, s.drop ds.length)

/-- The escapes of one letter. -/
def escapeLetter? : Char → Option Char
  | 'a' => some '\x07'
  | 'b' => some '\x08'
  | 'e' => some '\x1b'
  | 'f' => some '\x0c'
  | 'n' => some '\n'
  | 'r' => some '\r'
  | 't' => some '\t'
  | 'v' => some '\x0b'
  | '\\' => some '\\'
  | _ => none

/-- The text that escapes write, and whether `\c` ended it. In arguments an octal number begins with
    a zero that does not count as one of its digits. -/
def unescape (argument : Bool) : Nat → List Char → Word × Bool
  | 0, s => (s, false)
  | _ + 1, [] => ([], false)
  | fuel + 1, '\\' :: c :: s =>
    let also (d : Word) (s : List Char) : Word × Bool :=
      let (w, stop) := unescape argument fuel s
      (d ++ w, stop)
    if argument && c = 'c' then ([], true)
    else if argument && c = '0' then
      let (n, s) := octal 3 s
      also [Char.ofNat n] s
    else if (octalValue? c).isSome then
      let (n, s) := octal 3 (c :: s)
      also [Char.ofNat n] s
    else
      match escapeLetter? c with
      | some d => also [d] s
      | none => also ['\\', c] s
  | fuel + 1, c :: s =>
    let (w, stop) := unescape argument fuel s
    (c :: w, stop)

/-- The text that the escapes of an argument write. -/
def unescapeArgument (s : Word) : Word × Bool :=
  unescape true (s.length + 1) s

/-- How a value is set in its field. -/
structure Field where
  left : Bool := false
  zero : Bool := false
  plus : Bool := false
  space : Bool := false
  alternate : Bool := false
  width : Nat := 0
  precision : Option Nat := none

private def number (ds : List Char) : Nat :=
  ds.foldl (fun n c => n * 10 + (c.toNat - '0'.toNat)) 0

/-- The flags, width and precision before a conversion letter. -/
private def field (f : Field) : List Char → Field × List Char
  | '-' :: s => field { f with left := true } s
  | '0' :: s => field { f with zero := true } s
  | '+' :: s => field { f with plus := true } s
  | ' ' :: s => field { f with space := true } s
  | '#' :: s => field { f with alternate := true } s
  | s =>
    let width := s.takeWhile Char.isDigit
    let s := s.drop width.length
    match s with
    | '.' :: s =>
      let digits := s.takeWhile Char.isDigit
      ({ f with width := number width, precision := some (number digits) }, s.drop digits.length)
    | s => ({ f with width := number width }, s)

private def pad (f : Field) (w : Word) : Word :=
  let fill := List.replicate (f.width - w.length) ' '
  if f.left then w ++ fill else fill ++ w

/-- A signed number with its digits; zeros fill the field where they are asked for. -/
private def setNumber (f : Field) (sign digits : Word) : Word :=
  let digits := match f.precision with
    | some p => List.replicate (p - digits.length) '0' ++ digits
    | none => digits
  let digits :=
    if f.zero && !f.left && f.precision.isNone then
      List.replicate (f.width - sign.length - digits.length) '0' ++ digits
    else digits
  pad f (sign ++ digits)

/-- The integer an argument writes, and whether that is all of it. A quotation mark makes it the
    number of the next character. -/
def integerArgument (s : Word) : Int × Bool :=
  match s with
  | [] => (0, true)
  | '\'' :: c :: _ | '"' :: c :: _ => (c.toNat, true)
  | _ =>
    let s := s.dropWhile (· = ' ')
    let (negative, s) := match s with
      | '-' :: s => (true, s)
      | '+' :: s => (false, s)
      | s => (false, s)
    let (base, s) : Nat × List Char := match s with
      | '0' :: 'x' :: s => (16, s)
      | '0' :: 'X' :: s => (16, s)
      | '0' :: s => (8, '0' :: s)
      | s => (10, s)
    let value (c : Char) : Option Nat :=
      let n := if c.isDigit then c.toNat - '0'.toNat
        else if 'a' ≤ c ∧ c ≤ 'f' then c.toNat - 'a'.toNat + 10
        else if 'A' ≤ c ∧ c ≤ 'F' then c.toNat - 'A'.toNat + 10
        else 16
      if n < base then some n else none
    let ds := s.takeWhile fun c => (value c).isSome
    let n : Int := ds.foldl (fun n c => n * base + ((value c).getD 0 : Nat)) (0 : Nat)
    (if negative then -n else n, ds.length = s.length && !ds.isEmpty)

/-- What one use of a format prints. -/
structure Printed where
  output : Word
  remaining : List Word
  /-- Whether any argument was asked for. -/
  consumed : Bool
  /-- Whether the format ended early. -/
  stopped : Bool
  complaints : List Word

private def once : Nat → List Char → List Word → Printed
  | 0, _, args => ⟨[], args, false, true, []⟩
  | _ + 1, [], args => ⟨[], args, false, false, []⟩
  | fuel + 1, '%' :: '%' :: s, args =>
    let p := once fuel s args
    { p with output := '%' :: p.output }
  | fuel + 1, '%' :: s, args =>
    let (f, rest) := field {} s
    let argument := args.head?.getD []
    let next (w : Word) (s : List Char) (complaints : List Word) : Printed :=
      let p := once fuel s args.tail
      { p with output := w ++ p.output, consumed := true, complaints := complaints ++ p.complaints }
    let integer (render : Int → Word × Word) (s : List Char) : Printed :=
      let (n, complete) := integerArgument argument
      let (sign, digits) := render n
      next (setNumber f sign digits) s
        (if complete then []
          else if argument.any Char.isDigit then
            [argument ++ Word.ofString ": not completely converted"]
          else [argument ++ Word.ofString ": expected numeric value"])
    let unsigned (n : Int) : Nat := (Int64.ofInt n).toUInt64.toNat
    match rest with
    | 's' :: s =>
      let w := match f.precision with
        | some p => argument.take p
        | none => argument
      next (pad f w) s []
    | 'b' :: s =>
      let (w, stop) := unescapeArgument argument
      if stop then ⟨pad f w, args.tail, true, true, []⟩ else next (pad f w) s []
    | 'c' :: s => next (pad f (argument.take 1)) s []
    | c :: s =>
      if c = 'd' || c = 'i' then
        let sign (n : Int) : Word :=
          if n < 0 then ['-'] else if f.plus then ['+'] else if f.space then [' '] else []
        integer (fun n => (sign n, Nat.toDigits 10 n.natAbs)) s
      else if c = 'u' then integer (fun n => ([], Nat.toDigits 10 (unsigned n))) s
      else if c = 'o' then integer (fun n => ([], Nat.toDigits 8 (unsigned n))) s
      else if c = 'x' then
        integer (fun n => (if f.alternate then ['0', 'x'] else [], Nat.toDigits 16 (unsigned n))) s
      else if c = 'X' then
        integer (fun n => (if f.alternate then ['0', 'X'] else [],
          (Nat.toDigits 16 (unsigned n)).map Char.toUpper)) s
      else ⟨[], args, false, true, ['%' :: c :: Word.ofString ": invalid directive"]⟩
    | [] => ⟨[], args, false, true, [Word.ofString "%: missing format character"]⟩
  | fuel + 1, '\\' :: c :: s, args =>
    let (w, rest) : Word × List Char :=
      if (octalValue? c).isSome then
        let (n, rest) := octal 3 (c :: s)
        ([Char.ofNat n], rest)
      else
        match escapeLetter? c with
        | some d => ([d], s)
        | none => (['\\', c], s)
    let p := once fuel rest args
    { p with output := w ++ p.output }
  | fuel + 1, c :: s, args =>
    let p := once fuel s args
    { p with output := c :: p.output }

/-- Prints a format for as long as arguments remain, and the complaints about them. -/
def formatted (format : Word) (args : List Word) : Word × List Word :=
  let rec go : Nat → List Word → Word × List Word
    | 0, _ => ([], [])
    | fuel + 1, args =>
      let p := once (format.length + 1) format args
      if p.stopped || !p.consumed || p.remaining.isEmpty then (p.output, p.complaints)
      else
        let (w, cs) := go fuel p.remaining
        (p.output ++ w, p.complaints ++ cs)
  go (args.length + 1) args

/-- What the shell's `echo` prints: escapes are read, `-n` leaves out the line break. -/
def echoed (args : List Word) : Word :=
  let (silent, args) := match args with
    | ['-', 'n'] :: rest => (true, rest)
    | args => (false, args)
  let (w, stop) := unescapeArgument ([' '].intercalate args)
  if stop || silent then w else w ++ ['\n']

end DocBuild.Shell
