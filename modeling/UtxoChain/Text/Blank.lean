/-!
# Words between blanks

A blank is a character with the White_Space property. `words` cuts a text at its blanks and leaves
out the empty pieces.
-/

namespace UtxoChain.Text

/-- A character with the White_Space property. -/
def isBlank (c : Char) : Bool :=
  let n := c.toNat
  (9 ≤ n && n ≤ 13) || n == 0x20 || n == 0x85 || n == 0xa0 || n == 0x1680
    || (0x2000 ≤ n && n ≤ 0x200a) || n == 0x2028 || n == 0x2029 || n == 0x202f || n == 0x205f
    || n == 0x3000

/-- Ends the word collected in `current`, last character first, in front of the later words. -/
def endWord (current : List Char) (later : List (List Char)) : List (List Char) :=
  if current.isEmpty then later else current.reverse :: later

/-- The words of a text whose word under way is `current`, last character first. -/
def wordsFrom (current : List Char) : List Char → List (List Char)
  | [] => endWord current []
  | c :: rest =>
    if isBlank c then endWord current (wordsFrom [] rest) else wordsFrom (c :: current) rest

/-- The longest pieces of a text that hold no blank, in order. -/
def words (text : String) : List String :=
  (wordsFrom [] text.toList).map String.ofList

end UtxoChain.Text
