import UtxoChain.Bytes.Basic
import UtxoChain.Text.Quoted

/-!
# Hexadecimal text

Two digits write one byte, high half first. Writing uses lower-case digits; reading takes either
case. A text is read as its UTF-8 bytes, so a character outside ASCII is refused at its first byte.
The length is checked before the digits.
-/

namespace UtxoChain

/-- Why a hexadecimal text is refused. -/
inductive HexFault
  /-- The text has an odd number of bytes. -/
  | oddLength
  /-- The byte at the position is no hexadecimal digit. -/
  | badDigit (byte : UInt8) (position : Nat)
deriving DecidableEq

/-- The wording of a refusal; an offending byte is shown, quoted, as the character of the same
number. -/
def HexFault.message : HexFault → String
  | .oddLength => "Odd number of digits"
  | .badDigit byte position =>
    "Invalid character " ++ Text.quoteChar (Char.ofNat byte.toNat) ++ s!" at position {position}"

namespace Hex

/-- The digit that writes a number below sixteen. -/
def digit (n : UInt8) : Char :=
  Char.ofNat (if n < 10 then 48 + n.toNat else 87 + n.toNat)

/-- The two digits of a byte. -/
def digits (byte : UInt8) : List Char :=
  [digit (byte / 16), digit (byte % 16)]

/-- The hexadecimal text of a byte string. -/
def encode (bytes : Bytes) : String :=
  String.ofList (bytes.flatMap digits)

/-- The value of a digit given as its ASCII code. -/
def digitValue? (code : UInt8) : Option UInt8 :=
  if 48 ≤ code ∧ code ≤ 57 then some (code - 48)
  else if 97 ≤ code ∧ code ≤ 102 then some (code - 87)
  else if 65 ≤ code ∧ code ≤ 70 then some (code - 55)
  else none

/-- The value of the digit at `position`, or the refusal that names it. -/
def digitAt (position : Nat) (code : UInt8) : Except HexFault UInt8 :=
  match digitValue? code with
  | some value => .ok value
  | none => .error (.badDigit code position)

/-- Reads an even run of digits whose first has the given position. -/
def decodePairs (position : Nat) : Bytes → Except HexFault Bytes
  | [] => .ok []
  | [_] => .error .oddLength
  | high :: low :: rest => do
    let h ← digitAt position high
    let l ← digitAt (position + 1) low
    let tail ← decodePairs (position + 2) rest
    return (h * 16 + l) :: tail

/-- The byte string that a hexadecimal text writes. -/
def decode (text : String) : Except HexFault Bytes :=
  let codes := text.toUTF8.toList
  if codes.length % 2 = 1 then .error .oddLength else decodePairs 0 codes

end Hex

end UtxoChain
