import Mathlib.Algebra.Order.Ring.Nat
import Mathlib.Data.List.Nodup
import UtxoChain.Chain.Merkle
import UtxoChain.Proofs.Digest.Collisions

/-!
# What a Merkle root commits to

The root of a tree does not commit to its leaves: a last leaf without partner is paired with itself,
so repeating it changes nothing (`root_repeat_last`). Among trees whose leaves are distinct it does,
up to their height: where no two of the strings hashed collide, every level of such a tree is without
repetition, going up is injective on such levels, and so of two trees with one root the leaves of one
are a level of the other (`mem_levels_of_root_eq`).

What is said of all levels is proved by going up one level at a time (`levels_induction`).
-/

namespace UtxoChain

namespace MerkleTree

/-! ## One level -/

/-- The strings whose double hashes are the level above a level. -/
def pairStrings : List Hash256 → List Bytes
  | [] => []
  | [last] => [last.toBytes ++ last.toBytes]
  | left :: right :: rest => (left.toBytes ++ right.toBytes) :: pairStrings rest

/-- The level above a level holds the double hashes of its pairs. -/
theorem pairUp_eq_map (level : List Hash256) : pairUp level = (pairStrings level).map doubleHash := by
  induction level using pairUp.induct with
  | case1 => rfl
  | case2 last => rfl
  | case3 left right rest ih => rw [pairUp, pairStrings, List.map_cons, ih, pairHash]

/-- The level above has half as many nodes, rounded up. -/
theorem length_pairUp (level : List Hash256) : (pairUp level).length = (level.length + 1) / 2 := by
  induction level using pairUp.induct with
  | case1 => rfl
  | case2 last => simp [pairUp]
  | case3 left right rest ih =>
    rw [pairUp, List.length_cons, ih, List.length_cons, List.length_cons]
    omega

/-- Above a level with nodes there is one with nodes. -/
theorem pairUp_ne_nil {level : List Hash256} (h : level ≠ []) : pairUp level ≠ [] := by
  have hLength := length_pairUp level
  have hPos := List.length_pos_iff.2 h
  exact List.ne_nil_of_length_pos (by omega)

/-- Each string that is hashed writes two nodes of the level. -/
theorem exists_of_mem_pairStrings {level : List Hash256} {string : Bytes}
    (h : string ∈ pairStrings level) :
    ∃ left ∈ level, ∃ right ∈ level, string = left.toBytes ++ right.toBytes := by
  induction level using pairUp.induct with
  | case1 => simp [pairStrings] at h
  | case2 last => exact ⟨last, by simp, last, by simp, by simpa [pairStrings] using h⟩
  | case3 left right rest ih =>
    rw [pairStrings, List.mem_cons] at h
    rcases h with rfl | hRest
    · exact ⟨left, by simp, right, by simp, rfl⟩
    · obtain ⟨one, hOne, other, hOther, rfl⟩ := ih hRest
      exact ⟨one, by simp [hOne], other, by simp [hOther], rfl⟩

/-- Each string that is hashed has the bytes of two nodes. -/
theorem length_of_mem_pairStrings {level : List Hash256} {string : Bytes}
    (h : string ∈ pairStrings level) : string.length = 64 := by
  obtain ⟨left, -, right, -, rfl⟩ := exists_of_mem_pairStrings h
  rw [List.length_append, left.length_toBytes, right.length_toBytes]

/-- Two nodes are told apart by their bytes in a row. -/
theorem append_toBytes_inj {left right left' right' : Hash256} :
    left.toBytes ++ right.toBytes = left'.toBytes ++ right'.toBytes ↔
      left = left' ∧ right = right' := by
  constructor
  · intro h
    obtain ⟨hLeft, hRight⟩ := List.append_inj h (by rw [left.length_toBytes, left'.length_toBytes])
    exact ⟨FixedBytes.toBytes_inj.1 hLeft, FixedBytes.toBytes_inj.1 hRight⟩
  · rintro ⟨rfl, rfl⟩
    rfl

/-- The pairs of a level without repetition are distinct. -/
theorem nodup_pairStrings {level : List Hash256} (h : level.Nodup) : (pairStrings level).Nodup := by
  induction level using pairUp.induct with
  | case1 => simp [pairStrings]
  | case2 last => simp [pairStrings]
  | case3 left right rest ih =>
    rw [pairStrings, List.nodup_cons]
    simp only [List.nodup_cons, List.mem_cons, not_or] at h
    refine ⟨fun hMem => ?_, ih h.2.2⟩
    obtain ⟨one, hOne, other, -, hSame⟩ := exists_of_mem_pairStrings hMem
    obtain ⟨rfl, -⟩ := append_toBytes_inj.1 hSame
    exact h.1.2 hOne

/-- A level without repetition is told by its pairs. -/
theorem eq_of_pairStrings_eq {one other : List Hash256} (hOne : one.Nodup) (hOther : other.Nodup)
    (h : pairStrings one = pairStrings other) : one = other := by
  induction one using pairUp.induct generalizing other with
  | case1 =>
    match other with
    | [] => rfl
    | [last] => simp [pairStrings] at h
    | left :: right :: rest => simp [pairStrings] at h
  | case2 last =>
    match other with
    | [] => simp [pairStrings] at h
    | [last'] =>
      simp only [pairStrings, List.cons.injEq, append_toBytes_inj, and_true, and_self] at h
      rw [h]
    | left :: right :: rest =>
      -- A node paired with itself would stand twice in the other level.
      simp only [pairStrings, List.cons.injEq, append_toBytes_inj] at h
      obtain ⟨⟨rfl, rfl⟩, -⟩ := h
      simp at hOther
  | case3 left right rest ih =>
    match other with
    | [] => simp [pairStrings] at h
    | [last] =>
      simp only [pairStrings, List.cons.injEq, append_toBytes_inj] at h
      obtain ⟨⟨rfl, rfl⟩, -⟩ := h
      simp at hOne
    | left' :: right' :: rest' =>
      simp only [pairStrings, List.cons.injEq, append_toBytes_inj] at h
      obtain ⟨⟨rfl, rfl⟩, hRest⟩ := h
      rw [ih hOne.of_cons.of_cons hOther.of_cons.of_cons hRest]

/-- The level above a level without repetition has none either, if no two pairs collide. -/
theorem nodup_pairUp {level : List Hash256} (h : level.Nodup)
    (hFree : CollisionFree (pairStrings level)) : (pairUp level).Nodup := by
  rw [pairUp_eq_map]
  exact (nodup_pairStrings h).map_on hFree

/-- A level without repetition is told by the level above it, if no two pairs collide. -/
theorem eq_of_pairUp_eq {one other : List Hash256} (hOne : one.Nodup) (hOther : other.Nodup)
    (hFree : CollisionFree (pairStrings one ++ pairStrings other)) (h : pairUp one = pairUp other) :
    one = other := by
  refine eq_of_pairStrings_eq hOne hOther ?_
  rw [pairUp_eq_map, pairUp_eq_map] at h
  have hLength : (pairStrings one).length = (pairStrings other).length := by
    simpa using congrArg List.length h
  refine List.ext_getElem hLength fun index hLeft hRight => ?_
  refine hFree _ (by simp) _ (by simp) ?_
  have hHash := List.getElem_of_eq h (by simpa using hLeft)
  simpa using hHash

/-! ## All levels -/

/-- The strings that are hashed in computing the root of a tree. -/
def hashed (tree : MerkleTree) : List Bytes :=
  tree.levels.dropLast.flatMap pairStrings

/-- The levels from one of at least two nodes are that one and those from the level above. -/
theorem levelsFrom_succ {limit : Nat} {level : List Hash256} (h : 1 < level.length) :
    levelsFrom (limit + 1) level = level :: levelsFrom limit (pairUp level) := by
  rw [levelsFrom, if_neg (Nat.not_le.2 h)]

/-- From a level of at most one node there is no level above. -/
theorem levelsFrom_of_length_le_one {limit : Nat} {level : List Hash256} (h : level.length ≤ 1) :
    levelsFrom limit level = [level] := by
  cases limit with
  | zero => rfl
  | succ limit => rw [levelsFrom, if_pos h]

/-- Where the limit leaves room for every level, one goes up from a level of at least two nodes to the
level above it, and ends at a level of at most one. -/
theorem levels_induction {motive : ∀ (limit : Nat) (level : List Hash256), level.length ≤ limit → Prop}
    (short : ∀ limit level (hLimit : level.length ≤ limit), level.length ≤ 1 →
      motive limit level hLimit)
    (long : ∀ limit level (hLimit : level.length ≤ limit + 1) (hAbove : (pairUp level).length ≤ limit),
      1 < level.length → motive limit (pairUp level) hAbove → motive (limit + 1) level hLimit)
    (limit : Nat) (level : List Hash256) (hLimit : level.length ≤ limit) :
    motive limit level hLimit := by
  induction limit generalizing level with
  | zero => exact short 0 level hLimit (by omega)
  | succ limit ih =>
    by_cases hShort : level.length ≤ 1
    · exact short (limit + 1) level hLimit hShort
    · have hLength := length_pairUp level
      have hAbove : (pairUp level).length ≤ limit := by omega
      exact long limit level hLimit hAbove (Nat.not_le.1 hShort) (ih (pairUp level) hAbove)

/-- A limit that leaves room for every level does not change the levels. -/
theorem levelsFrom_eq_of_length_le {limit limit' : Nat} {level : List Hash256}
    (hLimit : level.length ≤ limit) (hLimit' : level.length ≤ limit') :
    levelsFrom limit level = levelsFrom limit' level := by
  induction limit, level, hLimit using levels_induction generalizing limit' with
  | short limit level _ hShort =>
    rw [levelsFrom_of_length_le_one hShort, levelsFrom_of_length_le_one hShort]
  | long limit level _ _ hLong ih =>
    obtain ⟨limit', rfl⟩ : ∃ less, limit' = less + 1 := ⟨limit' - 1, by omega⟩
    have hLength := length_pairUp level
    have hLevels : levelsFrom limit (pairUp level) = levelsFrom limit' (pairUp level) := ih (by omega)
    rw [levelsFrom_succ hLong, levelsFrom_succ hLong, hLevels]

/-- The levels from a level begin with it. -/
theorem exists_levelsFrom_eq_cons (limit : Nat) (level : List Hash256) :
    ∃ above, levelsFrom limit level = level :: above := by
  cases limit with
  | zero => exact ⟨[], rfl⟩
  | succ limit =>
    rw [levelsFrom]
    split_ifs
    · exact ⟨[], rfl⟩
    · exact ⟨_, rfl⟩

/-- There is a level, be it the one of no leaves. -/
theorem length_levelsFrom_pos (limit : Nat) (level : List Hash256) :
    0 < (levelsFrom limit level).length := by
  obtain ⟨above, hAbove⟩ := exists_levelsFrom_eq_cons limit level
  rw [hAbove, List.length_cons]
  exact Nat.succ_pos _

/-- The leaves of a tree are those that it was made of. -/
theorem leaves_ofLeaves (leaves : List Hash256) : (ofLeaves leaves).leaves = leaves := by
  obtain ⟨above, hAbove⟩ := exists_levelsFrom_eq_cons leaves.length leaves
  unfold ofLeaves MerkleTree.leaves
  rw [hAbove]
  rfl

/-- A level of at least two nodes lies below the root, and so do those above it but the last. -/
theorem dropLast_levelsFrom_succ {limit : Nat} {level : List Hash256} (h : 1 < level.length) :
    (levelsFrom (limit + 1) level).dropLast =
      level :: (levelsFrom limit (pairUp level)).dropLast := by
  obtain ⟨above, hAbove⟩ := exists_levelsFrom_eq_cons limit (pairUp level)
  rw [levelsFrom_succ h, hAbove, List.dropLast_cons_cons]

/-- A level of at least two nodes adds its pairs to what is hashed. -/
theorem hashed_levelsFrom_succ {limit : Nat} {level : List Hash256} (h : 1 < level.length) :
    hashed ⟨levelsFrom (limit + 1) level⟩ =
      pairStrings level ++ hashed ⟨levelsFrom limit (pairUp level)⟩ := by
  unfold hashed
  rw [dropLast_levelsFrom_succ h, List.flatMap_cons]

/-- A level of at least two nodes has the root of the level above. -/
theorem root_levelsFrom_succ {limit : Nat} {level : List Hash256} (h : 1 < level.length) :
    root ⟨levelsFrom (limit + 1) level⟩ = root ⟨levelsFrom limit (pairUp level)⟩ := by
  obtain ⟨above, hAbove⟩ := exists_levelsFrom_eq_cons limit (pairUp level)
  unfold root
  rw [levelsFrom_succ h, hAbove]
  simp

/-- A level is the first one, or the one above a level whose pairs are hashed. -/
theorem eq_or_exists_pairUp {limit : Nat} {start level : List Hash256} (hLimit : start.length ≤ limit)
    (hMem : level ∈ levelsFrom limit start) :
    level = start ∨ ∃ below ∈ (levelsFrom limit start).dropLast, level = pairUp below := by
  induction limit, start, hLimit using levels_induction with
  | short limit start _ hShort =>
    rw [levelsFrom_of_length_le_one hShort, List.mem_singleton] at hMem
    exact .inl hMem
  | long limit start _ _ hLong ih =>
    rw [levelsFrom_succ hLong, List.mem_cons] at hMem
    rw [dropLast_levelsFrom_succ hLong]
    rcases hMem with rfl | hMem
    · exact .inl rfl
    · refine .inr ?_
      rcases ih hMem with rfl | ⟨below, hBelow, rfl⟩
      · exact ⟨start, List.mem_cons_self, rfl⟩
      · exact ⟨below, List.mem_cons_of_mem _ hBelow, rfl⟩

/-- No level above distinct leaves repeats a node, if no two of the strings hashed collide. -/
theorem nodup_of_mem_levelsFrom {limit : Nat} {start level : List Hash256}
    (hLimit : start.length ≤ limit) (hStart : start.Nodup)
    (hFree : CollisionFree (hashed ⟨levelsFrom limit start⟩)) (hMem : level ∈ levelsFrom limit start) :
    level.Nodup := by
  induction limit, start, hLimit using levels_induction with
  | short limit start _ hShort =>
    rw [levelsFrom_of_length_le_one hShort, List.mem_singleton] at hMem
    rw [hMem]
    exact hStart
  | long limit start _ _ hLong ih =>
    rw [hashed_levelsFrom_succ hLong] at hFree
    rw [levelsFrom_succ hLong, List.mem_cons] at hMem
    rcases hMem with rfl | hMem
    · exact hStart
    · have hUp := nodup_pairUp hStart (hFree.mono (List.subset_append_left _ _))
      exact ih hUp (hFree.mono (List.subset_append_right _ _)) hMem

/-- A last node without partner is paired with itself, as if it stood there twice. -/
theorem pairUp_repeat_last (front : List Hash256) (last : Hash256)
    (hEven : front.length % 2 = 0) : pairUp (front ++ [last, last]) = pairUp (front ++ [last]) := by
  induction front using pairUp.induct with
  | case1 => rfl
  | case2 node => simp at hEven
  | case3 left right rest ih =>
    have hRest : rest.length % 2 = 0 := by
      rw [List.length_cons, List.length_cons] at hEven
      omega
    simp only [List.cons_append, pairUp, ih hRest]

/-- Repeating the last of an odd number of leaves, but for a single one, does not change the root. -/
theorem root_repeat_last {front : List Hash256} (hFront : front ≠ []) (last : Hash256)
    (hEven : front.length % 2 = 0) :
    (ofLeaves (front ++ [last, last])).root = (ofLeaves (front ++ [last])).root := by
  have hPositive := List.length_pos_iff.2 hFront
  have hOdd : (front ++ [last]).length = front.length + 1 := by simp
  have hEven' : (front ++ [last, last]).length = (front.length + 1) + 1 := by simp
  have hUp := length_pairUp (front ++ [last])
  have hLevels : levelsFrom (front.length + 1) (pairUp (front ++ [last])) =
      levelsFrom front.length (pairUp (front ++ [last])) :=
    levelsFrom_eq_of_length_le (by omega) (by omega)
  unfold ofLeaves
  calc
    root ⟨levelsFrom (front ++ [last, last]).length (front ++ [last, last])⟩
      = root ⟨levelsFrom (front.length + 1) (pairUp (front ++ [last, last]))⟩ := by
        rw [hEven', root_levelsFrom_succ (by omega)]
    _ = root ⟨levelsFrom front.length (pairUp (front ++ [last]))⟩ := by
        rw [pairUp_repeat_last front last hEven, hLevels]
    _ = root ⟨levelsFrom (front ++ [last]).length (front ++ [last])⟩ := by
        rw [hOdd, root_levelsFrom_succ (by omega)]

/-- The topmost level holds nothing but the root. -/
theorem singleton_root_mem {limit : Nat} {start : List Hash256} (hLimit : start.length ≤ limit)
    (hStart : start ≠ []) : [root ⟨levelsFrom limit start⟩] ∈ levelsFrom limit start := by
  induction limit, start, hLimit using levels_induction with
  | short limit start _ hShort =>
    obtain ⟨node, rfl⟩ : ∃ node, start = [node] := by
      refine List.length_eq_one_iff.1 (Nat.le_antisymm hShort ?_)
      exact List.length_pos_iff.2 hStart
    rw [levelsFrom_of_length_le_one hShort]
    simp [root]
  | long limit start _ _ hLong ih =>
    rw [root_levelsFrom_succ hLong, levelsFrom_succ hLong]
    exact List.mem_cons_of_mem _ (ih (pairUp_ne_nil hStart))

/-- Of two trees over distinct leaves with one root, the leaves of one are a level of the other, if no
two of the strings hashed in them collide. -/
theorem mem_levels_of_root_eq {limit limit' : Nat} {one other : List Hash256}
    (hLimit : one.length ≤ limit) (hLimit' : other.length ≤ limit') (hOne : one ≠ [])
    (hOther : other ≠ []) (hNodup : one.Nodup) (hNodup' : other.Nodup)
    (hFree : CollisionFree
      (hashed ⟨levelsFrom limit one⟩ ++ hashed ⟨levelsFrom limit' other⟩))
    (hRoot : root ⟨levelsFrom limit one⟩ = root ⟨levelsFrom limit' other⟩) :
    one ∈ levelsFrom limit' other ∨ other ∈ levelsFrom limit one := by
  -- The induction climbs one tree: its next level is without repetition and has the same root.
  induction limit, one, hLimit using levels_induction with
  | short limit one hLimit hShort =>
    -- A single leaf is the root, and so the topmost level of the other tree.
    have hTop := singleton_root_mem hLimit hOne
    rw [levelsFrom_of_length_le_one hShort, List.mem_singleton,
      ← levelsFrom_of_length_le_one hShort, hRoot] at hTop
    rw [← hTop]
    exact .inl (singleton_root_mem hLimit' hOther)
  | long limit one _ hAbove hLong ih =>
    rw [root_levelsFrom_succ hLong] at hRoot
    rw [hashed_levelsFrom_succ hLong, List.append_assoc] at hFree
    have hUp := nodup_pairUp hNodup (hFree.mono (List.subset_append_left _ _))
    rw [levelsFrom_succ hLong]
    rcases ih (pairUp_ne_nil hOne) hUp (hFree.mono (List.subset_append_right _ _)) hRoot with
      hMem | hMem
    · rcases eq_or_exists_pairUp hLimit' hMem with hStart | ⟨below, hBelow, hPair⟩
      · -- The level above the one leaves is the other leaves.
        obtain ⟨above, hLevels⟩ := exists_levelsFrom_eq_cons limit (pairUp one)
        rw [← hStart, hLevels]
        exact .inr (by simp)
      · -- One level above is a level above another of the other tree: then the two below are the same.
        left
        have hBelowMem := List.dropLast_subset _ hBelow
        have hBelowNodup := nodup_of_mem_levelsFrom hLimit' hNodup'
          (hFree.mono fun string hString => by simp [hString]) hBelowMem
        have hSame : one = below := by
          refine eq_of_pairUp_eq hNodup hBelowNodup (hFree.mono ?_) hPair
          intro string hString
          rw [List.mem_append] at hString ⊢
          refine hString.imp_right fun hString => List.mem_append_right _ ?_
          exact List.mem_flatMap.2 ⟨below, hBelow, hString⟩
        rw [hSame]
        exact hBelowMem
    · exact .inr (List.mem_cons_of_mem _ hMem)

end MerkleTree

end UtxoChain
