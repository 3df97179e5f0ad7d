namespace DocBuild

/-- A number of the form `±mantissa * 2^exponent`, or one of the special values. A finite number has
    `mantissa < 2^53` and `-1074 ≤ exponent`, and its mantissa is as large as these bounds allow. -/
inductive Binary64 where
  | finite (negative : Bool) (mantissa : Nat) (exponent : Int)
  | infinite (negative : Bool)
  | nan
  deriving DecidableEq, Repr

namespace Binary64

/-- The quotient rounded to the nearest natural number, a half going to the even neighbour. -/
def roundDiv (num den : Nat) : Nat :=
  let q := num / den
  let r := num % den
  if 2 * r > den ∨ (2 * r = den ∧ q % 2 = 1) then q + 1 else q

/-- The finite number nearest to `num / den`, or infinity beyond the largest one. -/
def ofQuotient (negative : Bool) (num den : Nat) : Binary64 :=
  if num = 0 then .finite negative 0 (-1074)
  else
    let guess : Int := (Nat.log2 num : Int) - Nat.log2 den - 52
    let scaled (e : Int) : Nat × Nat :=
      if 0 ≤ e then (num, den * Nat.pow 2 e.toNat) else (num * Nat.pow 2 (-e).toNat, den)
    let quotient (e : Int) : Nat := let (n, d) := scaled e; n / d
    let e := if quotient guess < Nat.pow 2 52 then guess - 1 else guess
    let e := max e (-1074)
    let (n, d) := scaled e
    let m := roundDiv n d
    let (m, e) := if m = Nat.pow 2 53 then (Nat.pow 2 52, e + 1) else (m, e)
    if e > 971 then .infinite negative else .finite negative m e

/-- The number nearest to `digits * 10^exponent`. Exponents far outside the range of the format are
    answered without computing the power. -/
def ofDecimal (negative : Bool) (digits : Nat) (exponent : Int) : Binary64 :=
  let magnitude : Int := exponent + (Nat.toDigits 10 digits).length
  if digits = 0 ∨ magnitude < -400 then .finite negative 0 (-1074)
  else if magnitude > 400 then .infinite negative
  else if 0 ≤ exponent then ofQuotient negative (digits * Nat.pow 10 exponent.toNat) 1
  else ofQuotient negative digits (Nat.pow 10 (-exponent).toNat)

/-- The numerator and denominator of `m * 2^e`. -/
private def ratio (m : Nat) (e : Int) : Nat × Nat :=
  if 0 ≤ e then (m * Nat.pow 2 e.toNat, 1) else (m, Nat.pow 2 (-e).toNat)

/-- Of the two multiples of `10^k` next to `m * 2^e`, the nearest one that reads back as that
    number, in units of `10^k`. -/
private def onGrid? (m : Nat) (e k : Int) : Option Nat :=
  let (num, den) := ratio m e
  let (num, den) : Nat × Nat :=
    if 0 ≤ k then (num, den * Nat.pow 10 k.toNat) else (num * Nat.pow 10 (-k).toNat, den)
  let below := num / den
  let back (u : Nat) : Bool := ofDecimal false u k = .finite false m e
  let nearest := roundDiv num den
  if back nearest then some nearest
  else if back below then some below
  else if back (below + 1) then some (below + 1)
  else none

/-- The first exponent, going down from `k`, whose grid holds a text of the number. -/
private def search (m : Nat) (e : Int) : Nat → Int → Nat × Int
  | 0, k => ((onGrid? m e k).getD 0, k)
  | fuel + 1, k =>
    match onGrid? m e k with
    | some u => (u, k)
    | none => search m e fuel (k - 1)

/-- The shortest digits of a positive number: their value and the exponent of the last one. -/
def shortest (m : Nat) (e : Int) : Nat × Int :=
  let (num, den) := ratio m e
  let start : Int := (Nat.toDigits 10 (num / den)).length
  let lead : Int :=
    if num / den = 0 then -((Nat.toDigits 10 (den / num)).length : Int) + 1 else start
  search m e 40 lead

/-- Positional notation without an exponent, always with a decimal point. -/
def positional (u : Nat) (k : Int) : List Char :=
  let digits := Nat.toDigits 10 u
  if 0 ≤ k then digits ++ List.replicate k.toNat '0' ++ ['.', '0']
  else
    let places := (-k).toNat
    let padded := List.replicate (places + 1 - digits.length) '0' ++ digits
    padded.take (padded.length - places) ++ '.' :: padded.drop (padded.length - places)

def text : Binary64 → String
  | nan => "NaN"
  | infinite negative => if negative then "-inf" else "inf"
  | finite negative m e =>
    let sign := if negative then ['-'] else []
    if m = 0 then String.ofList (sign ++ ['0', '.', '0'])
    else
      let (u, k) := shortest m e
      String.ofList (sign ++ positional u k)

end Binary64
end DocBuild
