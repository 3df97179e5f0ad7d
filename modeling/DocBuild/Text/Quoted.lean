import DocBuild.Text.Utf8
import DocBuild.Text.Printable
import DocBuild.Text.Extending

namespace DocBuild.Text

/-- The digits of `n` in base 16; `ten` is the letter that follows `9`. -/
def hexDigits (ten : Char) (n : Nat) : List Char :=
  (Nat.toDigits 16 n).map fun d =>
    if d.isDigit then d else Char.ofNat (d.toNat - 'a'.toNat + ten.toNat)

/-- A quotation mark, a backslash and the common controls have short escapes; extending and
    unprintable characters are written by their code point. -/
def escapedChar (c : Char) : List Char :=
  match c with
  | '\x00' => ['\\', '0']
  | '\t' => ['\\', 't']
  | '\r' => ['\\', 'r']
  | '\n' => ['\\', 'n']
  | '\\' => ['\\', '\\']
  | '"' => ['\\', '"']
  | c =>
    if isExtending c || !isPrintable c then
      ['\\', 'u', '\x7b'] ++ hexDigits 'a' c.toNat ++ ['\x7d']
    else [c]

/-- A text between quotation marks. -/
def quoted (s : String) : String :=
  String.ofList ('"' :: s.toList.flatMap escapedChar ++ ['"'])

/-- Bytes between quotation marks: those that are no UTF-8 are written as two capital hexadecimal
    digits each. -/
def quotedBytes (b : Bytes) : String :=
  let shown := (Utf8.pieces b).flatMap fun
    | .char c => escapedChar c
    | .broken bytes => bytes.flatMap fun x =>
        ['\\', 'x'] ++ hexDigits 'A' (x.toNat / 16) ++ hexDigits 'A' (x.toNat % 16)
  String.ofList ('"' :: shown ++ ['"'])

end DocBuild.Text
