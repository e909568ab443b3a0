import UtxoChain.Error.Basic

/-!
# Decoders

A decoder reads a value at a cursor. The cursor is kept when a read fails: a read of a fixed number
of bytes that fails takes nothing, and a compound read that fails has taken what its earlier parts
took.
-/

namespace UtxoChain

/-- A place in a byte string that is being read. -/
structure Cursor where
  /-- The number of bytes already read. -/
  pos : Nat
  /-- The bytes still to be read. -/
  rest : Bytes
deriving DecidableEq

namespace Cursor

/-- The start of a byte string. -/
def ofBytes (bytes : Bytes) : Cursor := ⟨0, bytes⟩

/-- The number of bytes still to be read. -/
def remaining (cursor : Cursor) : Nat := cursor.rest.length

end Cursor

/-- A reader of values at a cursor. -/
abbrev Decoder := EStateM Error Cursor

namespace Decoder

/-- The result of a decoder at a cursor, and the cursor that it leaves, also after a failure. -/
def runAt {α : Type} (decoder : Decoder α) (cursor : Cursor) : Except Error α × Cursor :=
  match decoder.run cursor with
  | .ok value cursor => (.ok value, cursor)
  | .error error cursor => (.error error, cursor)

/-- The number of bytes still to be read. -/
def remaining : Decoder Nat := fun cursor =>
  .ok cursor.remaining cursor

/-- Nothing is left to be read. -/
def atEnd : Decoder Bool := fun cursor =>
  .ok cursor.rest.isEmpty cursor

/-- The next `count` bytes. Where there are fewer, nothing is read, and `fault` makes the error of
the number of bytes there are. -/
def bytesOr (fault : Nat → Error) (count : Nat) : Decoder Bytes := fun cursor =>
  match Bytes.split? count cursor.rest with
  | some (front, rest) => .ok front ⟨cursor.pos + count, rest⟩
  | none => .error (fault cursor.remaining) cursor

/-- The next `count` bytes. Where there are fewer, nothing is read. -/
def bytes (count : Nat) : Decoder Bytes :=
  bytesOr (.notEnoughData count) count

/-- The number that the next `width` bytes write, most significant first. -/
def natBE (width : Nat) : Decoder Nat := do
  return Bytes.toNatBE (← bytes width)

/-- The number that the next `width` bytes write, least significant first. -/
def natLE (width : Nat) : Decoder Nat := do
  return Bytes.toNatLE (← bytes width)

/-- The next byte. -/
def byte : Decoder UInt8 := do
  return UInt8.ofNat (← natBE 1)

/-- The next four bytes as a word, most significant first. -/
def word32 : Decoder UInt32 := do
  return UInt32.ofNat (← natBE 4)

/-- The next eight bytes as a word, most significant first. -/
def word64 : Decoder UInt64 := do
  return UInt64.ofNat (← natBE 8)

/-- As many values as `count` says, one after the other. -/
def replicate {α : Type} (decoder : Decoder α) : Nat → Decoder (List α)
  | 0 => pure []
  | count + 1 => do
    let first ← decoder
    let others ← replicate decoder count
    return first :: others

/-- A value that is computed rather than read; a failure leaves the cursor where it is. -/
def ofExcept {α : Type} : Except Error α → Decoder α
  | .ok value => pure value
  | .error error => throw error

/-- The next `width` bytes as a string of fixed width. -/
def fixed (width : Nat) : Decoder (FixedBytes width) := do
  ofExcept (FixedBytes.ofBytes (← bytes width))

/-- Nothing is left to be read. -/
def finish : Decoder Unit := do
  match ← remaining with
  | 0 => pure ()
  | trailing => throw (.tooMuchData trailing)

/-- The value that a whole byte string writes. -/
def decodeAll {α : Type} (decoder : Decoder α) (bytes : Bytes) : Except Error α :=
  let whole : Decoder α := do
    let value ← decoder
    finish
    return value
  (whole.runAt (.ofBytes bytes)).1

end Decoder

end UtxoChain
