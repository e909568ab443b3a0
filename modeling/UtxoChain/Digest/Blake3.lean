import UtxoChain.Bytes.Fixed

/-!
# BLAKE3

The plain hash with a 32-byte output. The input is cut into chunks of 1024 bytes and each chunk into
blocks of 64. The blocks of a chunk are compressed in a chain; the chunks are the leaves of a binary
tree whose left subtrees are full, and each parent compresses the two values below it. The last
compression, of the only chunk or of the topmost parent, is marked as the root.
-/

namespace UtxoChain.Blake3

/-- Four words: a row of the state, or a quarter of a block. -/
structure Row where
  /-- The first word. -/
  a : UInt32
  /-- The second word. -/
  b : UInt32
  /-- The third word. -/
  c : UInt32
  /-- The fourth word. -/
  d : UInt32
deriving DecidableEq

/-- Sixteen words as four rows: the state of a compression, or a message block. -/
structure Block where
  /-- Words 0 to 3. -/
  r0 : Row
  /-- Words 4 to 7. -/
  r1 : Row
  /-- Words 8 to 11. -/
  r2 : Row
  /-- Words 12 to 15. -/
  r3 : Row
deriving DecidableEq

/-- Eight words: the value that one compression hands to the next. -/
structure Chain where
  /-- Words 0 to 3. -/
  low : Row
  /-- Words 4 to 7. -/
  high : Row
deriving DecidableEq

/-- The word turned right by `n` bits, for `n` from 1 to 31. -/
def rotateRight (word n : UInt32) : UInt32 :=
  (word >>> n) ||| (word <<< (32 - n))

/-- Mixes two message words into one column of the state. -/
def mix (a b c d x y : UInt32) : Row :=
  let a := a + b + x
  let d := rotateRight (d ^^^ a) 16
  let c := c + d
  let b := rotateRight (b ^^^ c) 12
  let a := a + b + y
  let d := rotateRight (d ^^^ a) 8
  let c := c + d
  let b := rotateRight (b ^^^ c) 7
  ⟨a, b, c, d⟩

/-- Mixes the four columns with eight message words, two for each column. -/
def mixColumns (v : Block) (x y : Row) : Block :=
  let p := mix v.r0.a v.r1.a v.r2.a v.r3.a x.a x.b
  let q := mix v.r0.b v.r1.b v.r2.b v.r3.b x.c x.d
  let r := mix v.r0.c v.r1.c v.r2.c v.r3.c y.a y.b
  let s := mix v.r0.d v.r1.d v.r2.d v.r3.d y.c y.d
  ⟨⟨p.a, q.a, r.a, s.a⟩, ⟨p.b, q.b, r.b, s.b⟩, ⟨p.c, q.c, r.c, s.c⟩, ⟨p.d, q.d, r.d, s.d⟩⟩

/-- The row turned left by one place. -/
def Row.turn (r : Row) : Row := ⟨r.b, r.c, r.d, r.a⟩

/-- One round: the columns, then the diagonals, which are columns once the rows are turned. -/
def round (v m : Block) : Block :=
  let v := mixColumns v m.r0 m.r1
  let w := mixColumns ⟨v.r0, v.r1.turn, v.r2.turn.turn, v.r3.turn.turn.turn⟩ m.r2 m.r3
  ⟨w.r0, w.r1.turn.turn.turn, w.r2.turn.turn, w.r3.turn⟩

/-- The order in which the next round takes the message words. -/
def permute (m : Block) : Block :=
  ⟨⟨m.r0.c, m.r1.c, m.r0.d, m.r2.c⟩, ⟨m.r1.d, m.r0.a, m.r1.a, m.r3.b⟩,
    ⟨m.r0.b, m.r2.d, m.r3.a, m.r1.b⟩, ⟨m.r2.b, m.r3.c, m.r3.d, m.r2.a⟩⟩

/-- As many rounds as the number says. -/
def rounds : Nat → Block → Block → Block
  | 0, v, _ => v
  | n + 1, v, m => rounds n (round v m) (permute m)

/-- The initial words. -/
def iv : Chain :=
  ⟨⟨0x6A09E667, 0xBB67AE85, 0x3C6EF372, 0xA54FF53A⟩,
    ⟨0x510E527F, 0x9B05688C, 0x1F83D9AB, 0x5BE0CD19⟩⟩

/-- The rows' words combined by exclusive or. -/
def Row.xor (p q : Row) : Row := ⟨p.a ^^^ q.a, p.b ^^^ q.b, p.c ^^^ q.c, p.d ^^^ q.d⟩

/-- Compresses a block of `length` input bytes into a chain value. -/
def compress (chain : Chain) (block : Block) (counter : UInt64) (length flags : UInt32) : Chain :=
  let last : Row := ⟨counter.toUInt32, (counter >>> 32).toUInt32, length, flags⟩
  let v := rounds 7 ⟨chain.low, chain.high, iv.low, last⟩ block
  ⟨v.r0.xor v.r2, v.r1.xor v.r3⟩

/-- The flag of a chunk's first block. -/
def chunkStart : UInt32 := 1

/-- The flag of a chunk's last block. -/
def chunkEnd : UInt32 := 2

/-- The flag of a parent of the tree. -/
def parentFlag : UInt32 := 4

/-- The flag of the last compression. -/
def rootFlag : UInt32 := 8

/-- The word that four bytes write, least significant first; missing bytes are zero. -/
def word (bytes : Bytes) : UInt32 :=
  UInt32.ofNat (Bytes.toNatLE (bytes.take 4))

/-- The four words at the start of a byte string. -/
def row (bytes : Bytes) : Row :=
  ⟨word bytes, word (bytes.drop 4), word (bytes.drop 8), word (bytes.drop 12)⟩

/-- The sixteen words at the start of a byte string. -/
def block (bytes : Bytes) : Block :=
  ⟨row bytes, row (bytes.drop 16), row (bytes.drop 32), row (bytes.drop 48)⟩

/-- The bytes of a row, each word with its least significant byte first. -/
def Row.toBytes (r : Row) : Bytes :=
  Bytes.ofNatLE 4 r.a.toNat ++ Bytes.ofNatLE 4 r.b.toNat ++ Bytes.ofNatLE 4 r.c.toNat
    ++ Bytes.ofNatLE 4 r.d.toNat

/-- The bytes of a chain value. -/
def Chain.toBytes (chain : Chain) : Bytes :=
  chain.low.toBytes ++ chain.high.toBytes

/-- The blocks of a chunk after `chain`, of which `count` follow before the last. The flags `first`
mark the next block and `final` the last. -/
def chunkFrom (counter : UInt64) (final : UInt32) :
    Nat → Chain → UInt32 → Bytes → Chain
  | 0, chain, first, bytes =>
    compress chain (block bytes) counter (UInt32.ofNat bytes.length) (first ||| final)
  | count + 1, chain, first, bytes =>
    let chain := compress chain (block bytes) counter 64 first
    chunkFrom counter final count chain 0 (bytes.drop 64)

/-- The value of a chunk of at most 1024 bytes; `root` is the root flag or nothing. -/
def chunk (counter : UInt64) (root : UInt32) (bytes : Bytes) : Chain :=
  chunkFrom counter (chunkEnd ||| root) ((bytes.length - 1) / 64) iv chunkStart bytes

/-- The value of a parent; `root` is the root flag or nothing. -/
def parent (root : UInt32) (left right : Chain) : Chain :=
  compress iv ⟨left.low, left.high, right.low, right.high⟩ 0 64 (parentFlag ||| root)

/-- The value of at most `2 ^ height` chunks whose first has the given counter. A tree with at most
half as many chunks is no taller than its left half would be. -/
def tree (root : UInt32) : Nat → UInt64 → Bytes → Chain
  | 0, counter, bytes => chunk counter root bytes
  | height + 1, counter, bytes =>
    let half := 1 <<< height
    if bytes.length ≤ half * 1024 then tree root height counter bytes
    else
      parent root (tree 0 height counter (bytes.take (half * 1024)))
        (tree 0 height (counter + UInt64.ofNat half) (bytes.drop (half * 1024)))

/-- The height of the tree over an input of the given length. -/
def treeHeight (length : Nat) : Nat :=
  if length ≤ 1024 then 0 else ((length - 1) / 1024).log2 + 1

/-- A chain value has 32 bytes. -/
theorem length_toBytes (chain : Chain) : chain.toBytes.length = 32 := by
  simp [Chain.toBytes, Row.toBytes]

/-- The 32-byte hash of a byte string. -/
def hash (bytes : Bytes) : Hash256 :=
  let root := tree rootFlag (treeHeight bytes.length) 0 bytes
  ⟨root.toBytes, length_toBytes root⟩

end UtxoChain.Blake3
