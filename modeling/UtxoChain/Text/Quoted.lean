import UtxoChain.Text.Shapeless

/-!
# Quoted text

A text is shown between double quotes and a single character between single ones. The quote in use
and the backslash are escaped, the four controls with a letter of their own take it, and every other
character without a shape is shown by its number in hexadecimal.
-/

namespace UtxoChain.Text

/-- One hexadecimal digit of a number below sixteen. -/
def hexDigit (n : Nat) : Char :=
  Char.ofNat (if n < 10 then 48 + n else 87 + n)

/-- The hexadecimal digits of a number below `16 ^ width`, without leading zeros. -/
def hexDigits : Nat → Nat → List Char
  | 0, _ => []
  | width + 1, n => if n < 16 then [hexDigit n] else hexDigits width (n / 16) ++ [hexDigit (n % 16)]

/-- One character as it is shown between two of the given quotes. -/
def escape (mark c : Char) : List Char :=
  if c = mark then ['\\', mark]
  else
    match c with
    | '\\' => ['\\', '\\']
    | '\x00' => ['\\', '0']
    | '\t' => ['\\', 't']
    | '\n' => ['\\', 'n']
    | '\r' => ['\\', 'r']
    | c => if isShapeless c then ['\\', 'u', '\x7b'] ++ hexDigits 6 c.toNat ++ ['\x7d'] else [c]

/-- Some characters between two of the given quotes, the special ones escaped. -/
def enclose (mark : Char) (content : List Char) : String :=
  String.ofList (mark :: content.flatMap (escape mark) ++ [mark])

/-- A text between double quotes, its special characters escaped. -/
def quote (text : String) : String :=
  enclose '"' text.toList

/-- A character between single quotes, escaped if it is special. -/
def quoteChar (c : Char) : String :=
  enclose '\x27' [c]

end UtxoChain.Text
