/-!
# JSON values

A document of natural numbers, texts, lists and records. Numbers that are no natural numbers in plain
digits are kept as their text, since nothing here means one. A text whose escapes name half a
surrogate pair has a place in a document but no content.
-/

namespace UtxoChain

/-- A JSON value. -/
inductive Json
  /-- The null value. -/
  | null
  /-- A truth value. -/
  | bool (b : Bool)
  /-- A natural number in plain digits. -/
  | natural (n : Nat)
  /-- Any other number, as it is written. -/
  | number (literal : String)
  /-- A text. -/
  | text (content : String)
  /-- A text, or a record with a name, that has no content. -/
  | unreadable
  /-- A list of values. -/
  | array (items : List Json)
  /-- Named values in the order in which they are written. -/
  | object (members : List (String × Json))
deriving Inhabited

namespace Json

/-- A natural number below a bound. -/
def toNat? (bound : Nat) : Json → Option Nat
  | .natural n => if n < bound then some n else none
  | _ => none

/-- A text. -/
def toText? : Json → Option String
  | .text content => some content
  | _ => none

/-- The items of a list, each read by a function. -/
def toList? {α : Type} (read : Json → Option α) : Json → Option (List α)
  | .array items => items.mapM read
  | _ => none

/-- The value of the only member with a name. No such member gives nothing inside, and more than one
is a failure. -/
def member? (members : List (String × Json)) (name : String) : Option (Option Json) :=
  match members.filter fun member => member.1 == name with
  | [] => some none
  | [member] => some (some member.2)
  | _ => none

/-- The fields of a record with the given names. A record may also be written as the list of its
fields. Members with other names are passed over; a field may be missing. -/
def fields? (names : List String) : Json → Option (List (Option Json))
  | .object members => names.mapM (member? members)
  | .array items =>
    if items.length ≤ names.length then
      some (items.map some ++ List.replicate (names.length - items.length) none)
    else none
  | _ => none

mutual

/-- The value with the members of every record in the order of their names. -/
def sorted : Json → Json
  | .array items => .array (sortedItems items)
  | .object members =>
    .object ((sortedMembers members).mergeSort fun left right => left.1 ≤ right.1)
  | value => value

/-- The items of a list, each with its members in order. -/
def sortedItems : List Json → List Json
  | [] => []
  | item :: rest => sorted item :: sortedItems rest

/-- The members of a record, each value with its members in order. -/
def sortedMembers : List (String × Json) → List (String × Json)
  | [] => []
  | (name, value) :: rest => (name, sorted value) :: sortedMembers rest

end

end Json

end UtxoChain
