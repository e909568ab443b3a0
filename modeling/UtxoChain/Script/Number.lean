import UtxoChain.Error.Basic

/-!
# Script numbers

A stack item is a number of any size in two's complement, most significant byte first. The sign is
the highest bit of the first byte. Only the shortest form of a number is read as one; zero is the
single byte `00`.
-/

namespace UtxoChain.ScriptNumber

/-- The shortest width that leaves the highest bit of a natural number clear. -/
def width (n : Nat) : Nat :=
  (n.log2 + 1) / 8 + 1

/-- The shortest form of a number. A negative number is the complement of its distance to `-1`. -/
def encode : Int → Bytes
  | .ofNat n => Bytes.ofNatBE (width n) n
  | .negSucc n => (Bytes.ofNatBE (width n) n).map (~~~ ·)

/-- The number that any byte string stands for; the empty one stands for zero. -/
def value (bytes : Bytes) : Int :=
  match bytes with
  | [] => 0
  | first :: _ =>
    if 0x80 ≤ first then .negSucc (Bytes.toNatBE (bytes.map (~~~ ·)))
    else .ofNat (Bytes.toNatBE bytes)

/-- The number of which a byte string is the shortest form. -/
def decode (bytes : Bytes) : Except NumberFault Int :=
  if encode (value bytes) = bytes then .ok (value bytes) else .error (.notMinimal bytes)

/-- A number as a word without sign. -/
def toWord (size : WordSize) (number : Int) : Except NumberFault Nat :=
  if 0 ≤ number ∧ number < size.bound then .ok number.toNat else .error (.tooWide number size)

/-- The number that stands for a truth value. -/
def ofBool (b : Bool) : Int :=
  if b then 1 else 0

/-- An item is true if any of its bytes is not zero. -/
def isTrue (bytes : Bytes) : Bool :=
  bytes.any (· != 0)

end UtxoChain.ScriptNumber
