import Mathlib.Data.Nat.Log
import Mathlib.Order.Bounds.Basic
import UtxoChain.Proofs.Chain.Merkle

/-!
# A Merkle tree by halves

A tree is built from its leaves up, one level after the other. Its root can also be told from the top
down (`MerkleTree.rootByHalves`): the tree of a height has a full left half and the remaining leaves in
the right one, and where none remain the left half stands for both. `MerkleTree.root_eq_rootByHalves`
says that the two roots are the same, and how many levels of how many nodes there are.

One level up, both ways of building lose a level: pairing the nodes of a level pairs those of its two
halves, since the left half has an even number of them (`take_pairUp`, `drop_pairUp`).
-/

namespace UtxoChain.MerkleTree

/-- The root of the tree of a height over some leaves, from the top down. -/
def rootByHalves : Nat → List Hash256 → Hash256
  | 0, leaves => leaves.headD FixedBytes.zero
  | height + 1, leaves =>
    if leaves.length ≤ 2 ^ height then
      pairHash (rootByHalves height leaves) (rootByHalves height leaves)
    else
      pairHash (rootByHalves height (leaves.take (2 ^ height)))
        (rootByHalves height (leaves.drop (2 ^ height)))

/-- Where the left half has room for all leaves, it stands for both. -/
theorem rootByHalves_of_le {height : Nat} {leaves : List Hash256} (h : leaves.length ≤ 2 ^ height) :
    rootByHalves (height + 1) leaves =
      pairHash (rootByHalves height leaves) (rootByHalves height leaves) := by
  rw [rootByHalves, if_pos h]

/-- Where the left half is full, the other leaves are in the right one. -/
theorem rootByHalves_of_lt {height : Nat} {leaves : List Hash256} (h : 2 ^ height < leaves.length) :
    rootByHalves (height + 1) leaves =
      pairHash (rootByHalves height (leaves.take (2 ^ height)))
        (rootByHalves height (leaves.drop (2 ^ height))) := by
  rw [rootByHalves, if_neg (Nat.not_le.2 h)]

/-! ## One level up -/

/-- The first nodes above a level are those above its first pairs. -/
theorem take_pairUp (count : Nat) (level : List Hash256) :
    (pairUp level).take count = pairUp (level.take (2 * count)) := by
  induction level using pairUp.induct generalizing count with
  | case1 => simp [pairUp]
  | case2 last => cases count <;> simp [pairUp, Nat.mul_succ]
  | case3 left right rest ih =>
    cases count with
    | zero => simp [pairUp]
    | succ count => rw [pairUp, List.take_succ_cons, ih, Nat.mul_succ, List.take_succ_cons,
        List.take_succ_cons, pairUp]

/-- The nodes above a level but for the first ones are those above what follows its first pairs. -/
theorem drop_pairUp (count : Nat) (level : List Hash256) :
    (pairUp level).drop count = pairUp (level.drop (2 * count)) := by
  induction level using pairUp.induct generalizing count with
  | case1 => simp [pairUp]
  | case2 last => cases count <;> simp [pairUp, Nat.mul_succ]
  | case3 left right rest ih =>
    cases count with
    | zero => simp [pairUp]
    | succ count => rw [pairUp, List.drop_succ_cons, ih, Nat.mul_succ, List.drop_succ_cons,
        List.drop_succ_cons]

/-- One level up, the tree by halves has the same root and is one level lower. -/
theorem rootByHalves_succ {height : Nat} {level : List Hash256} (hNodes : level ≠ [])
    (hLength : level.length ≤ 2 ^ (height + 1)) :
    rootByHalves (height + 1) level = rootByHalves height (pairUp level) := by
  have hPos := List.length_pos_iff.2 hNodes
  induction height generalizing level with
  | zero =>
    match level with
    | [last] => rfl
    | [left, right] => rfl
    | left :: right :: third :: rest => simp at hLength
  | succ height ih =>
    have hUp := length_pairUp level
    have hPower : 2 ^ (height + 1) = 2 * 2 ^ height := Nat.pow_succ'
    have hPower' : 2 ^ (height + 1 + 1) = 2 * 2 ^ (height + 1) := Nat.pow_succ'
    rcases Nat.lt_or_ge (2 ^ (height + 1)) level.length with hHalf | hHalf
    · -- The left half is full, so the level is cut between two pairs.
      have hAbove : 2 ^ height < (pairUp level).length := by omega
      have hLeft : (level.take (2 ^ (height + 1))).length = 2 ^ (height + 1) := by
        rw [List.length_take]
        omega
      have hRight : (level.drop (2 ^ (height + 1))).length = level.length - 2 ^ (height + 1) :=
        List.length_drop
      rw [rootByHalves_of_lt hHalf, rootByHalves_of_lt hAbove, take_pairUp, drop_pairUp, ← hPower,
        ih (List.ne_nil_of_length_pos (by omega)) (by omega) (by omega),
        ih (List.ne_nil_of_length_pos (by omega)) (by omega) (by omega)]
    · -- Nothing is left for the right half, neither here nor one level up.
      have hAbove : (pairUp level).length ≤ 2 ^ height := by omega
      rw [rootByHalves_of_le hHalf, rootByHalves_of_le hAbove, ih hNodes hHalf hPos]

/-! ## All levels -/

/-- The height of a tree over some leaves: the least one at which it has room for them. -/
def height (leaves : List Hash256) : Nat :=
  Nat.clog 2 leaves.length

/-- The height is the least whose power of two is not below the number of leaves. -/
theorem isLeast_height (leaves : List Hash256) :
    IsLeast {bound | leaves.length ≤ 2 ^ bound} (height leaves) :=
  ⟨Nat.le_pow_clog Nat.one_lt_two _, fun _ h => (Nat.clog_le_iff_le_pow Nat.one_lt_two).2 h⟩

/-- A tree of at most one leaf has no height. -/
theorem height_of_length_le_one {leaves : List Hash256} (h : leaves.length ≤ 1) :
    height leaves = 0 :=
  Nat.clog_of_right_le_one h 2

/-- A tree of at least two leaves is one level higher than that over the level above them. -/
theorem height_of_one_lt {leaves : List Hash256} (h : 1 < leaves.length) :
    height leaves = height (pairUp leaves) + 1 := by
  unfold height
  rw [Nat.clog_of_two_le Nat.one_lt_two h, length_pairUp]
  rfl

/-- The levels of a tree are those above one another, up to its height. -/
theorem levelsFrom_eq_map_iterate {limit : Nat} {level : List Hash256} (hLimit : level.length ≤ limit) :
    levelsFrom limit level =
      (List.range (height level + 1)).map fun depth => pairUp^[depth] level := by
  induction limit, level, hLimit using levels_induction with
  | short limit level _ hShort =>
    rw [levelsFrom_of_length_le_one hShort, height_of_length_le_one hShort]
    rfl
  | long limit level _ _ hLong ih =>
    rw [levelsFrom_succ hLong, ih, height_of_one_lt hLong,
      List.range_succ_eq_map (n := height (pairUp level) + 1), List.map_cons, List.map_map]
    rfl

/-- The level at a depth has as many nodes as it takes powers of two to cover the leaves: their number
divided by the power, rounded up. -/
theorem length_iterate_pairUp (depth : Nat) (leaves : List Hash256) :
    (pairUp^[depth] leaves).length = (leaves.length + 2 ^ depth - 1) / 2 ^ depth := by
  induction depth generalizing leaves with
  | zero => simp
  | succ depth ih =>
    have hPower : 2 ^ (depth + 1) = 2 * 2 ^ depth := Nat.pow_succ'
    have hPos : 0 < 2 ^ depth := Nat.two_pow_pos depth
    have hSum : (leaves.length + 1) / 2 + 2 ^ depth - 1 = (leaves.length + 2 ^ (depth + 1) - 1) / 2 := by
      omega
    rw [Function.iterate_succ_apply, ih, length_pairUp, hSum, Nat.div_div_eq_div_mul, ← hPower]

/-- The levels of several nodes are those below the height. -/
theorem one_lt_length_iterate_pairUp_iff {depth : Nat} {leaves : List Hash256} :
    1 < (pairUp^[depth] leaves).length ↔ depth < height leaves := by
  have hPos : 0 < 2 ^ depth := Nat.two_pow_pos depth
  -- A level of at most one node has room for all leaves below it.
  have hRoom : 2 * 2 ^ depth ≤ leaves.length + 2 ^ depth - 1 ↔ 2 ^ depth < leaves.length := by omega
  rw [length_iterate_pairUp, Nat.lt_iff_add_one_le, Nat.le_div_iff_mul_le hPos, hRoom]
  exact (Nat.lt_clog_iff_pow_lt Nat.one_lt_two).symm

/-- The root of the levels is that of the tree by halves. -/
theorem root_levelsFrom_eq_rootByHalves {limit : Nat} {level : List Hash256}
    (hLimit : level.length ≤ limit) :
    root ⟨levelsFrom limit level⟩ = rootByHalves (height level) level := by
  induction limit, level, hLimit using levels_induction with
  | short limit level _ hShort =>
    rw [levelsFrom_of_length_le_one hShort, height_of_length_le_one hShort]
    cases level with
    | nil => rfl
    | cons node rest => rfl
  | long limit level _ _ hLong ih =>
    have hNodes : level ≠ [] := List.ne_nil_of_length_pos (Nat.zero_lt_of_lt hLong)
    have hRoom : level.length ≤ 2 ^ (height (pairUp level) + 1) :=
      height_of_one_lt hLong ▸ (isLeast_height level).1
    rw [root_levelsFrom_succ hLong, ih, height_of_one_lt hLong, rootByHalves_succ hNodes hRoom]

/-- A tree over some leaves is the tree by halves of the least height that has room for them: it has a
level for each step up to that height and one more, each level is made of the one below it and has as
many nodes as it takes powers of two to cover the leaves, a level has several nodes exactly if it is
not the last, and the root is the one from the top down. A tree without leaves has one level and the
zero root. -/
theorem root_eq_rootByHalves (leaves : List Hash256) :
    (∃ height, IsLeast {bound | leaves.length ≤ 2 ^ bound} height ∧
      (ofLeaves leaves).levels.length = height + 1 ∧
      (∀ depth ≤ height, (ofLeaves leaves).levels[depth]? = some (pairUp^[depth] leaves)) ∧
      (∀ depth, (pairUp^[depth] leaves).length = (leaves.length + 2 ^ depth - 1) / 2 ^ depth ∧
        (1 < (pairUp^[depth] leaves).length ↔ depth < height)) ∧
      (ofLeaves leaves).root = rootByHalves height leaves) ∧
    (ofLeaves []).levels = [[]] ∧ (ofLeaves []).root = FixedBytes.zero := by
  have hLeast := isLeast_height leaves
  have hLevels : (ofLeaves leaves).levels = _ := levelsFrom_eq_map_iterate (Nat.le_refl _)
  refine ⟨⟨height leaves, hLeast, ?_, ?_, ?_, ?_⟩, rfl, rfl⟩
  · rw [hLevels, List.length_map, List.length_range]
  · intro depth hDepth
    rw [hLevels, List.getElem?_map, List.getElem?_range (Nat.lt_succ_of_le hDepth), Option.map_some]
  · exact fun depth => ⟨length_iterate_pairUp depth leaves, one_lt_length_iterate_pairUp_iff⟩
  · exact root_levelsFrom_eq_rootByHalves (Nat.le_refl _)

example (a b c d e : Hash256) : (ofLeaves [a, b, c, d, e]).root =
    pairHash (pairHash (pairHash a b) (pairHash c d)) (pairHash (pairHash e e) (pairHash e e)) :=
  rfl

end UtxoChain.MerkleTree
