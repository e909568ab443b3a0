import UtxoChain.Digest.Double

/-!
# Merkle trees

A Merkle tree commits to a list of hashes. Each level pairs the hashes of the level below, the last
one with itself if it has no partner, up to a level of one. A single leaf is its own root, and a tree
without leaves has the zero root. A proof leads from a leaf to the root by the partners on the way.
-/

namespace UtxoChain

/-- The parent of two nodes. -/
def pairHash (left right : Hash256) : Hash256 :=
  doubleHash (left.toBytes ++ right.toBytes)

/-- The levels of a tree, the leaves first. -/
structure MerkleTree where
  /-- The levels from the leaves up. -/
  levels : List (List Hash256)
deriving DecidableEq

namespace MerkleTree

/-- The level above a level. -/
def pairUp : List Hash256 → List Hash256
  | [] => []
  | [last] => [pairHash last last]
  | left :: right :: rest => pairHash left right :: pairUp rest

/-- A level and those above it, of which there are at most `limit`. -/
def levelsFrom : Nat → List Hash256 → List (List Hash256)
  | 0, level => [level]
  | limit + 1, level =>
    if level.length ≤ 1 then [level] else level :: levelsFrom limit (pairUp level)

/-- The tree over a list of leaves. Each level is shorter than the one below it, so there are no more
levels than leaves. -/
def ofLeaves (leaves : List Hash256) : MerkleTree :=
  ⟨levelsFrom leaves.length leaves⟩

/-- The leaves of a tree. -/
def leaves (tree : MerkleTree) : List Hash256 :=
  tree.levels.headD []

/-- The root of a tree. -/
def root (tree : MerkleTree) : Hash256 :=
  ((tree.levels.getLast?.bind List.head?).getD FixedBytes.zero)

end MerkleTree

/-- A way from a leaf to the root. -/
structure MerkleProof where
  /-- The position of the leaf. -/
  leafIndex : Nat
  /-- The partners on the way, from the leaf up. -/
  siblings : List Hash256
deriving DecidableEq

namespace MerkleTree

/-- The partner of the node at a position: its neighbour, or itself if it has none. -/
def sibling (level : List Hash256) (position : Nat) : Hash256 :=
  match level[position ^^^ 1]? with
  | some neighbour => neighbour
  | none => level.getD position FixedBytes.zero

/-- The partners on the way up through some levels from a position in the first of them. -/
def siblings : List (List Hash256) → Nat → List Hash256
  | [], _ => []
  | level :: above, position => sibling level position :: siblings above (position / 2)

/-- The way from the leaf at a position to the root. -/
def proof? (tree : MerkleTree) (index : Nat) : Option MerkleProof :=
  if index < tree.leaves.length then some ⟨index, siblings tree.levels.dropLast index⟩ else none

end MerkleTree

namespace MerkleProof

/-- The node that a way of partners reaches from a node at a position. An even position is the left
one of its pair. -/
def climb : List Hash256 → Nat → Hash256 → Hash256
  | [], _, node => node
  | partner :: rest, position, node =>
    let parent := if position % 2 = 0 then pairHash node partner else pairHash partner node
    climb rest (position / 2) parent

/-- The way leads from the leaf to the root. -/
def verify (proof : MerkleProof) (leaf root : Hash256) : Bool :=
  climb proof.siblings proof.leafIndex leaf == root

end MerkleProof

end UtxoChain
