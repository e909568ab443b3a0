import UtxoChain.Json.Value

/-!
# Reading JSON

A reader takes a value off the front of a text and gives the rest. Blanks may stand around every
token. Nested values are read with a bound on the depth of the calls, which the length of the text
supplies: between two calls for a value at least one character is taken.
-/

namespace UtxoChain.Json

/-- The text without the blanks at its front. -/
def skipBlanks (input : List Char) : List Char :=
  input.dropWhile fun c => c == ' ' || c == '\t' || c == '\n' || c == '\r'

/-- A part of a text between quotes: a character, or a code unit given by number. -/
inductive Piece
  /-- A character. -/
  | char (c : Char)
  /-- A code unit of sixteen bits. -/
  | unit (code : Nat)

/-- The character that a letter after a backslash stands for. -/
def letterEscape? (letter : Char) : Option Char :=
  match letter with
  | '"' => some '"'
  | '\\' => some '\\'
  | '/' => some '/'
  | 'b' => some '\x08'
  | 'f' => some '\x0c'
  | 'n' => some '\n'
  | 'r' => some '\r'
  | 't' => some '\t'
  | _ => none

/-- The value of a hexadecimal digit. -/
def digitValue? (c : Char) : Option Nat :=
  let n := c.toNat
  if 48 ≤ n ∧ n ≤ 57 then some (n - 48)
  else if 97 ≤ n ∧ n ≤ 102 then some (n - 87)
  else if 65 ≤ n ∧ n ≤ 70 then some (n - 55)
  else none

/-- The number that four hexadecimal digits write. -/
def unitOf? (a b c d : Char) : Option Nat := do
  return ((← digitValue? a) * 16 + (← digitValue? b)) * 256 + (← digitValue? c) * 16
    + (← digitValue? d)

/-- The pieces up to the closing quote, and what follows it. Controls must be escaped. -/
def pieces? : List Char → Option (List Piece × List Char)
  | [] => none
  | '"' :: rest => some ([], rest)
  | '\\' :: 'u' :: a :: b :: c :: d :: rest => do
    let code ← unitOf? a b c d
    let (others, rest) ← pieces? rest
    return (.unit code :: others, rest)
  | '\\' :: letter :: rest => do
    let c ← letterEscape? letter
    let (others, rest) ← pieces? rest
    return (.char c :: others, rest)
  | c :: rest =>
    if c.toNat < 0x20 ∨ c = '\\' then none
    else do
      let (others, rest) ← pieces? rest
      return (.char c :: others, rest)

/-- A code unit is the first half of a pair. -/
def isHighSurrogate (code : Nat) : Bool :=
  0xd800 ≤ code && code < 0xdc00

/-- A code unit is the second half of a pair. -/
def isLowSurrogate (code : Nat) : Bool :=
  0xdc00 ≤ code && code < 0xe000

/-- The characters of some pieces, unless half a pair is among them. -/
def charsOf? : List Piece → Option (List Char)
  | [] => some []
  | .char c :: rest => (charsOf? rest).map (c :: ·)
  | .unit high :: .unit low :: rest =>
    if isHighSurrogate high && isLowSurrogate low then
      (charsOf? rest).map (Char.ofNat (0x10000 + (high - 0xd800) * 0x400 + (low - 0xdc00)) :: ·)
    else if isHighSurrogate high || isLowSurrogate high then none
    else (charsOf? (.unit low :: rest)).map (Char.ofNat high :: ·)
  | .unit code :: rest =>
    if isHighSurrogate code || isLowSurrogate code then none
    else (charsOf? rest).map (Char.ofNat code :: ·)

/-- The content of a text after its opening quote, if it has one, and what follows. -/
def content? (input : List Char) : Option (Option String × List Char) := do
  let (pieces, rest) ← pieces? input
  return ((charsOf? pieces).map String.ofList, rest)

/-- A character is a decimal digit. -/
def isDigit (c : Char) : Bool :=
  '0' ≤ c && c ≤ '9'

/-- A run of at least one digit, and what follows it. -/
def digits? (input : List Char) : Option (List Char × List Char) :=
  let run := input.takeWhile isDigit
  if run.isEmpty then none else some (run, input.dropWhile isDigit)

/-- The digits of a whole number, which has no zero in front of others. -/
def whole? (input : List Char) : Option (List Char × List Char) := do
  let (run, rest) ← digits? input
  if run.head? = some '0' ∧ run.length ≠ 1 then none else return (run, rest)

/-- The point and the digits after it, if there is a point. -/
def fraction? : List Char → Option (List Char × List Char)
  | '.' :: rest => do
    let (run, rest) ← digits? rest
    return ('.' :: run, rest)
  | input => some ([], input)

/-- The mark, the sign and the digits of an exponent, if there is a mark. -/
def exponent? (input : List Char) : Option (List Char × List Char) :=
  match input with
  | c :: rest =>
    if c = 'e' ∨ c = 'E' then
      match rest with
      | '+' :: rest => (digits? rest).map fun (run, rest) => (c :: '+' :: run, rest)
      | '-' :: rest => (digits? rest).map fun (run, rest) => (c :: '-' :: run, rest)
      | rest => (digits? rest).map fun (run, rest) => (c :: run, rest)
    else some ([], input)
  | [] => some ([], [])

/-- The number that a run of digits writes. -/
def natOfDigits (run : List Char) : Nat :=
  run.foldl (fun n c => n * 10 + (c.toNat - 48)) 0

/-- A number without its sign. -/
def unsigned? (sign : List Char) (input : List Char) : Option (Json × List Char) := do
  let (run, rest) ← whole? input
  let (point, rest) ← fraction? rest
  let (power, rest) ← exponent? rest
  if sign.isEmpty && point.isEmpty && power.isEmpty then return (.natural (natOfDigits run), rest)
  else return (.number (String.ofList (sign ++ run ++ point ++ power)), rest)

/-- The record of some members, if every name has a content. -/
def ofMembers (members : List (Option String × Json)) : Json :=
  match members.mapM fun member => member.1.map fun name => (name, member.2) with
  | some members => .object members
  | none => .unreadable

mutual

/-- The value at the front of a text, and what follows it. -/
def value? : Nat → List Char → Option (Json × List Char)
  | 0, _ => none
  | depth + 1, input =>
    match skipBlanks input with
    | 'n' :: 'u' :: 'l' :: 'l' :: rest => some (.null, rest)
    | 't' :: 'r' :: 'u' :: 'e' :: rest => some (.bool true, rest)
    | 'f' :: 'a' :: 'l' :: 's' :: 'e' :: rest => some (.bool false, rest)
    | '"' :: rest => do
      let (content, rest) ← content? rest
      return ((content.map Json.text).getD .unreadable, rest)
    | '[' :: rest =>
      match skipBlanks rest with
      | ']' :: rest => some (.array [], rest)
      | rest => do
        let (items, rest) ← items? depth rest
        return (.array items, rest)
    | '\x7b' :: rest =>
      match skipBlanks rest with
      | '\x7d' :: rest => some (.object [], rest)
      | rest => do
        let (members, rest) ← members? depth rest
        return (ofMembers members, rest)
    | '-' :: rest => unsigned? ['-'] rest
    | rest => unsigned? [] rest

/-- The items up to the closing bracket, and what follows it. -/
def items? : Nat → List Char → Option (List Json × List Char)
  | 0, _ => none
  | depth + 1, input => do
    let (item, rest) ← value? depth input
    match skipBlanks rest with
    | ']' :: rest => return ([item], rest)
    | ',' :: rest => do
      let (others, rest) ← items? depth rest
      return (item :: others, rest)
    | _ => none

/-- The members up to the closing brace, and what follows it. -/
def members? : Nat → List Char → Option (List (Option String × Json) × List Char)
  | 0, _ => none
  | depth + 1, input =>
    match skipBlanks input with
    | '"' :: rest => do
      let (name, rest) ← content? rest
      match skipBlanks rest with
      | ':' :: rest => do
        let (value, rest) ← value? depth rest
        match skipBlanks rest with
        | '\x7d' :: rest => return ([(name, value)], rest)
        | ',' :: rest => do
          let (others, rest) ← members? depth rest
          return ((name, value) :: others, rest)
        | _ => none
      | _ => none
    | _ => none

end

/-- The value that a whole text writes. -/
def parse? (input : String) : Option Json := do
  let chars := input.toList
  let (value, rest) ← value? (2 * chars.length + 2) chars
  if (skipBlanks rest).isEmpty then return value else none

end UtxoChain.Json
