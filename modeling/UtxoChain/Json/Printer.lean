import UtxoChain.Json.Value

/-!
# Writing JSON

Two forms of a value: compact, without any blank, and indented, with one item to a line and two
spaces for each level. In texts the quote, the backslash and the controls are escaped, those that
have a letter by it and the others by number.
-/

namespace UtxoChain.Json

/-- One hexadecimal digit of a number below sixteen. -/
def escapeDigit (n : Nat) : Char :=
  Char.ofNat (if n < 10 then 48 + n else 87 + n)

/-- One character as it is written in a text. -/
def escapeChar (c : Char) : List Char :=
  match c with
  | '"' => ['\\', '"']
  | '\\' => ['\\', '\\']
  | '\x08' => ['\\', 'b']
  | '\x0c' => ['\\', 'f']
  | '\n' => ['\\', 'n']
  | '\r' => ['\\', 'r']
  | '\t' => ['\\', 't']
  | c =>
    if c.toNat < 0x20 then
      ['\\', 'u', '0', '0', escapeDigit (c.toNat / 16), escapeDigit (c.toNat % 16)]
    else [c]

/-- A text between quotes. -/
def quoted (content : String) : String :=
  String.ofList ('"' :: content.toList.flatMap escapeChar ++ ['"'])

mutual

/-- The form of a value without blanks. -/
def compact : Json → String
  | .null => "null"
  | .bool true => "true"
  | .bool false => "false"
  | .natural n => toString n
  | .number literal => literal
  | .text content => quoted content
  | .unreadable => quoted ""
  | .array items => "[" ++ String.intercalate "," (compactItems items) ++ "]"
  | .object members => "\x7b" ++ String.intercalate "," (compactMembers members) ++ "\x7d"

/-- The forms of the items of a list. -/
def compactItems : List Json → List String
  | [] => []
  | item :: rest => compact item :: compactItems rest

/-- The forms of the members of a record. -/
def compactMembers : List (String × Json) → List String
  | [] => []
  | (name, value) :: rest => (quoted name ++ ":" ++ compact value) :: compactMembers rest

end

/-- A new line at a level. -/
def newLine (level : Nat) : String :=
  String.ofList ('\n' :: List.replicate (2 * level) ' ')

/-- Some forms between brackets, each on a line of its own. -/
def bracketed (opening closing : String) (level : Nat) (forms : List String) : String :=
  if forms.isEmpty then opening ++ closing
  else
    let line := newLine (level + 1)
    opening ++ line ++ String.intercalate ("," ++ line) forms ++ newLine level ++ closing

mutual

/-- The indented form of a value that stands at a level. -/
def indentedAt (level : Nat) : Json → String
  | .array items => bracketed "[" "]" level (indentedItems (level + 1) items)
  | .object members => bracketed "\x7b" "\x7d" level (indentedMembers (level + 1) members)
  | value => compact value

/-- The indented forms of the items of a list. -/
def indentedItems (level : Nat) : List Json → List String
  | [] => []
  | item :: rest => indentedAt level item :: indentedItems level rest

/-- The indented forms of the members of a record. -/
def indentedMembers (level : Nat) : List (String × Json) → List String
  | [] => []
  | (name, value) :: rest =>
    (quoted name ++ ": " ++ indentedAt level value) :: indentedMembers level rest

end

/-- The indented form of a value. -/
def indented (value : Json) : String :=
  indentedAt 0 value

end UtxoChain.Json
