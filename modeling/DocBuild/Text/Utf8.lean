import DocBuild.Text.Bytes

namespace DocBuild.Utf8

/-- What a scan of a byte string finds next. -/
inductive Piece where
  | char (c : Char)
  | broken (bytes : Bytes)
  deriving DecidableEq, Repr

/-- The form of a character by its first byte, with the bounds on its second byte. Tight bounds
    exclude overlong forms, surrogates and points above `10FFFF`. -/
inductive Lead where
  | one
  | two
  | three (low high : UInt8)
  | four (low high : UInt8)
  | none

/-- What a first byte announces. -/
def lead (b : UInt8) : Lead :=
  if b < 0x80 then .one
  else if b < 0xc2 then .none
  else if b < 0xe0 then .two
  else if b = 0xe0 then .three 0xa0 0xbf
  else if b = 0xed then .three 0x80 0x9f
  else if b < 0xf0 then .three 0x80 0xbf
  else if b = 0xf0 then .four 0x90 0xbf
  else if b < 0xf4 then .four 0x80 0xbf
  else if b = 0xf4 then .four 0x80 0x8f
  else .none

def continues (b : UInt8) : Bool :=
  0x80 ≤ b && b ≤ 0xbf

private def bits (b : UInt8) (mask : Nat) : Nat :=
  b.toNat % mask

/-- The characters and broken pieces of a byte string, in order. -/
def pieces : Bytes → List Piece
  | [] => []
  | a :: s =>
    match lead a with
    | .one => .char (Char.ofNat a.toNat) :: pieces s
    | .none => .broken [a] :: pieces s
    | .two =>
      match s with
      | [] => [.broken [a]]
      | b :: s' =>
        if continues b then .char (Char.ofNat (bits a 0x20 * 0x40 + bits b 0x40)) :: pieces s'
        else .broken [a] :: pieces (b :: s')
    | .three low high =>
      match s with
      | [] => [.broken [a]]
      | b :: s' =>
        if low ≤ b && b ≤ high then
          match s' with
          | [] => [.broken [a, b]]
          | c :: s'' =>
            if continues c then
              .char (Char.ofNat ((bits a 0x10 * 0x40 + bits b 0x40) * 0x40 + bits c 0x40))
                :: pieces s''
            else .broken [a, b] :: pieces (c :: s'')
        else .broken [a] :: pieces (b :: s')
    | .four low high =>
      match s with
      | [] => [.broken [a]]
      | b :: s' =>
        if low ≤ b && b ≤ high then
          match s' with
          | [] => [.broken [a, b]]
          | c :: s'' =>
            if continues c then
              match s'' with
              | [] => [.broken [a, b, c]]
              | d :: s''' =>
                if continues d then
                  .char (Char.ofNat
                    (((bits a 0x08 * 0x40 + bits b 0x40) * 0x40 + bits c 0x40) * 0x40
                      + bits d 0x40)) :: pieces s'''
                else .broken [a, b, c] :: pieces (d :: s''')
            else .broken [a, b] :: pieces (c :: s'')
        else .broken [a] :: pieces (b :: s')
  termination_by s => s.length

/-- The text shown for pieces: each broken one becomes one replacement character. -/
def shown (ps : List Piece) : String :=
  String.ofList (ps.map fun
    | .char c => c
    | .broken _ => Char.ofNat 0xfffd)

/-- The text shown for bytes. -/
def lossy (b : Bytes) : String :=
  shown (pieces b)

end DocBuild.Utf8
