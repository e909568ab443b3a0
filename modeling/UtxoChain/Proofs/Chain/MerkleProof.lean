import Mathlib.Algebra.Order.Ring.Nat
import Mathlib.Data.Nat.Bitwise
import UtxoChain.Proofs.Chain.Merkle

/-!
# Ways from the leaves to the root

A tree gives a way to its root for each of its leaves and for no other position, and the way leads
there (`MerkleTree.proof_leadsToRoot`). Where no two of the strings hashed collide, nothing else of that
length does: a way that leads to the root starts at the leaf of its position, and its partners are
those of the tree (`MerkleTree.eq_proof_of_verify`).

Both go up one level at a time. A node and its partner, in the order that the position of the node
tells, are the pair of their level at half that position (`getElem?_pairStrings_of_node`). So the climb
of a node in the tree stays in the tree; and a climb that is in the tree one level up comes from that
pair, or from another string with the same hash.
-/

namespace UtxoChain

/-! ## One level up -/

/-- The string that is hashed for a node at a position and its partner. The node at the even position
of the two stands first. -/
def orderedPair (position : Nat) (node partner : Hash256) : Bytes :=
  if position % 2 = 0 then node.toBytes ++ partner.toBytes else partner.toBytes ++ node.toBytes

/-- At one position, the string tells the node and its partner. -/
theorem orderedPair_inj {position : Nat} {node partner node' partner' : Hash256} :
    orderedPair position node partner = orderedPair position node' partner' ↔
      node = node' ∧ partner = partner' := by
  unfold orderedPair
  split_ifs with hEven
  · exact MerkleTree.append_toBytes_inj
  · rw [MerkleTree.append_toBytes_inj]
    exact and_comm

namespace MerkleProof

/-- A way of several partners goes on from the hash of the node and the first of them. -/
theorem climb_cons (partner : Hash256) (rest : List Hash256) (position : Nat) (node : Hash256) :
    climb (partner :: rest) position node =
      climb rest (position / 2) (doubleHash (orderedPair position node partner)) := by
  rw [climb]
  unfold orderedPair
  split_ifs with hEven
  · rfl
  · rfl

/-- The strings that are hashed in climbing from a node at a position. -/
def climbStrings : List Hash256 → Nat → Hash256 → List Bytes
  | [], _, _ => []
  | partner :: rest, position, node =>
    orderedPair position node partner ::
      climbStrings rest (position / 2) (doubleHash (orderedPair position node partner))

/-- The strings that are hashed in verifying a proof of a leaf. -/
def hashed (proof : MerkleProof) (leaf : Hash256) : List Bytes :=
  climbStrings proof.siblings proof.leafIndex leaf

end MerkleProof

namespace MerkleTree

/-- The pair at a place holds the node at the even position and the one after it, or the former twice
if there is none. -/
theorem getElem?_pairStrings (level : List Hash256) (place : Nat) :
    (pairStrings level)[place]? = level[2 * place]?.map fun left =>
      left.toBytes ++ (level[2 * place + 1]?.getD left).toBytes := by
  induction level using pairUp.induct generalizing place with
  | case1 => simp [pairStrings]
  | case2 last => cases place <;> simp [pairStrings, Nat.mul_succ]
  | case3 left right rest ih =>
    cases place with
    | zero => simp [pairStrings]
    | succ place =>
      rw [pairStrings, List.getElem?_cons_succ, ih]
      rfl

/-- A node and its partner are the pair at half the position of the node. -/
theorem getElem?_pairStrings_of_node {level : List Hash256} {position : Nat} {node : Hash256}
    (hNode : level[position]? = some node) :
    (pairStrings level)[position / 2]? =
      some (orderedPair position node (sibling level position)) := by
  rw [getElem?_pairStrings]
  unfold orderedPair sibling
  rcases Nat.even_or_odd' position with ⟨place, rfl | rfl⟩
  · -- The node is the left one. If the right one is missing, it is its own partner.
    have hHalf : 2 * place / 2 = place := by omega
    have hEven : 2 * place % 2 = 0 := by omega
    rw [hHalf, if_pos hEven, Nat.xor_one_of_even (even_two_mul place), hNode, Option.map_some]
    cases hRight : level[2 * place + 1]? with
    | none => simp [List.getD_eq_getElem?_getD, hNode]
    | some right => simp
  · -- The node is the right one, so the left one is there.
    have hHalf : (2 * place + 1) / 2 = place := by omega
    have hOdd : ¬ (2 * place + 1) % 2 = 0 := by omega
    obtain ⟨hLess, -⟩ := List.getElem?_eq_some_iff.1 hNode
    have hLeft : level[2 * place]? = some level[2 * place] := List.getElem?_eq_getElem (by omega)
    rw [hHalf, if_neg hOdd, Nat.xor_one_of_odd (odd_two_mul_add_one place), Nat.add_sub_cancel,
      hLeft, hNode]
    rfl

/-- The parent of a node stands at half its position. -/
theorem getElem?_pairUp_of_node {level : List Hash256} {position : Nat} {node : Hash256}
    (hNode : level[position]? = some node) :
    (pairUp level)[position / 2]? =
      some (doubleHash (orderedPair position node (sibling level position))) := by
  rw [pairUp_eq_map, List.getElem?_map, getElem?_pairStrings_of_node hNode, Option.map_some]

/-! ## The ways of a tree -/

/-- A way has a partner for each level that it goes through. -/
theorem length_siblings (levels : List (List Hash256)) (position : Nat) :
    (siblings levels position).length = levels.length := by
  induction levels generalizing position with
  | nil => rfl
  | cons level above ih => rw [siblings, List.length_cons, ih, List.length_cons]

/-- A way from a position of a level stays inside the levels above. -/
theorem position_lt_length {limit depth position : Nat} {start level : List Hash256}
    (hLimit : start.length ≤ limit) (hPosition : position < start.length)
    (hLevel : (levelsFrom limit start)[depth]? = some level) :
    position / 2 ^ depth < level.length := by
  induction limit, start, hLimit using levels_induction generalizing position depth with
  | short limit start _ hShort =>
    rw [levelsFrom_of_length_le_one hShort] at hLevel
    obtain ⟨rfl, rfl⟩ : depth = 0 ∧ start = level := by
      simpa [List.getElem?_singleton] using hLevel
    simpa using hPosition
  | long limit start _ _ hLong ih =>
    rw [levelsFrom_succ hLong] at hLevel
    cases depth with
    | zero =>
      obtain rfl : start = level := by simpa using hLevel
      simpa using hPosition
    | succ depth =>
      have hLength := length_pairUp start
      rw [List.getElem?_cons_succ] at hLevel
      rw [Nat.pow_succ', ← Nat.div_div_eq_div_mul]
      exact ih (by omega) hLevel

/-- The way of a tree from a node of a level leads to the root. -/
theorem climb_siblings {limit position : Nat} {level : List Hash256} {node : Hash256}
    (hLimit : level.length ≤ limit) (hNode : level[position]? = some node) :
    MerkleProof.climb (siblings (levelsFrom limit level).dropLast position) position node =
      root ⟨levelsFrom limit level⟩ := by
  induction limit, level, hLimit using levels_induction generalizing position node with
  | short limit level _ hShort =>
    -- The only node of the topmost level is the root.
    obtain ⟨hLess, rfl⟩ := List.getElem?_eq_some_iff.1 hNode
    obtain rfl : position = 0 := by omega
    obtain ⟨node, rfl⟩ := List.length_eq_one_iff.1 (Nat.le_antisymm hShort hLess)
    rw [levelsFrom_of_length_le_one hShort]
    rfl
  | long limit level _ _ hLong ih =>
    rw [dropLast_levelsFrom_succ hLong, siblings, MerkleProof.climb_cons,
      root_levelsFrom_succ hLong]
    exact ih (getElem?_pairUp_of_node hNode)

/-- The proof at the position of a leaf is the way of the tree from there. -/
theorem proof?_ofLeaves (leaves : List Hash256) (index : Nat) :
    (ofLeaves leaves).proof? index =
      if index < leaves.length then
        some ⟨index, siblings (levelsFrom leaves.length leaves).dropLast index⟩
      else none := by
  unfold proof?
  rw [leaves_ofLeaves]
  rfl

/-- A tree has a way to its root for exactly the positions of its leaves. The way has a partner for
each level below the root, stays inside the levels, and leads from the leaf to the root. -/
theorem proof_leadsToRoot (leaves : List Hash256) (index : Nat) :
    ((ofLeaves leaves).proof? index = none ↔ leaves.length ≤ index) ∧
      ∀ leaf, leaves[index]? = some leaf →
        ∃ proof, (ofLeaves leaves).proof? index = some proof ∧ proof.leafIndex = index ∧
          proof.siblings.length + 1 = (ofLeaves leaves).levels.length ∧
          (∀ depth level, (ofLeaves leaves).levels[depth]? = some level →
            index / 2 ^ depth < level.length) ∧
          proof.verify leaf (ofLeaves leaves).root = true := by
  rw [proof?_ofLeaves]
  refine ⟨by simp, fun leaf hLeaf => ?_⟩
  obtain ⟨hIndex, -⟩ := List.getElem?_eq_some_iff.1 hLeaf
  refine ⟨_, if_pos hIndex, rfl, ?_, ?_, ?_⟩
  · have hPos := length_levelsFrom_pos leaves.length leaves
    rw [length_siblings, List.length_dropLast]
    exact Nat.sub_add_cancel hPos
  · intro depth level hLevel
    exact position_lt_length (Nat.le_refl _) hIndex hLevel
  · exact beq_iff_eq.2 (climb_siblings (Nat.le_refl _) hLeaf)

/-! ## Ways that lead to the root of a tree -/

/-- Where no two of the strings hashed collide, what has the parent of a node is that node, next to its
partner. -/
theorem eq_of_parent_eq {level : List Hash256} {position : Nat} {node start partner : Hash256}
    (hNode : level[position]? = some node)
    (hFree : CollisionFree (pairStrings level ++ [orderedPair position start partner]))
    (hParent : doubleHash (orderedPair position start partner) =
      doubleHash (orderedPair position node (sibling level position))) :
    start = node ∧ partner = sibling level position := by
  have hPair := List.mem_of_getElem? (getElem?_pairStrings_of_node hNode)
  have hString : orderedPair position start partner =
      orderedPair position node (sibling level position) :=
    hFree _ (by simp) _ (List.mem_append_left _ hPair) hParent
  exact orderedPair_inj.1 hString

/-- Where no two of the strings hashed collide, a way that is as long as that of the tree and leads to
its root starts at the node of its position and is that of the tree. -/
theorem eq_of_climb_eq_root {limit position : Nat} {level partners : List Hash256}
    {node start : Hash256} (hLimit : level.length ≤ limit) (hNode : level[position]? = some node)
    (hLength : partners.length + 1 = (levelsFrom limit level).length)
    (hFree : CollisionFree (hashed ⟨levelsFrom limit level⟩ ++
      MerkleProof.climbStrings partners position start))
    (hRoot : MerkleProof.climb partners position start = root ⟨levelsFrom limit level⟩) :
    start = node ∧ partners = siblings (levelsFrom limit level).dropLast position := by
  induction limit, level, hLimit using levels_induction generalizing position node start partners with
  | short limit level hLimit hShort =>
    -- Nothing is left to climb, so the start is the root, which is the only node.
    have hTop := climb_siblings hLimit hNode
    rw [levelsFrom_of_length_le_one hShort] at hLength hRoot hTop ⊢
    obtain rfl : partners = [] := List.eq_nil_of_length_eq_zero (by simpa using hLength)
    exact ⟨hRoot.trans hTop.symm, rfl⟩
  | long limit level _ _ hLong ih =>
    have hPos := length_levelsFrom_pos limit (pairUp level)
    rw [levelsFrom_succ hLong, List.length_cons] at hLength
    obtain ⟨partner, rest, rfl⟩ : ∃ partner rest, partners = partner :: rest :=
      List.exists_cons_of_length_pos (by omega)
    rw [MerkleProof.climb_cons, root_levelsFrom_succ hLong] at hRoot
    rw [hashed_levelsFrom_succ hLong, MerkleProof.climbStrings] at hFree
    -- The climb is that of the tree one level up, so it is there at the parent of the node.
    have hFreeAbove : CollisionFree (hashed ⟨levelsFrom limit (pairUp level)⟩ ++
        MerkleProof.climbStrings rest (position / 2)
          (doubleHash (orderedPair position start partner))) := by
      refine hFree.mono (List.append_subset.2 ⟨?_, ?_⟩)
      · exact List.subset_append_of_subset_left _ (List.subset_append_right _ _)
      · exact List.subset_append_of_subset_right _ (List.subset_cons_self _ _)
    obtain ⟨hParent, hRest⟩ := ih (getElem?_pairUp_of_node hNode) (by simpa using hLength)
      hFreeAbove hRoot
    obtain ⟨hStart, hPartner⟩ := eq_of_parent_eq hNode (hFree.mono (by simp)) hParent
    rw [dropLast_levelsFrom_succ hLong, siblings]
    exact ⟨hStart, by rw [hPartner, hRest]⟩

/-- Where no two of the strings hashed collide, a proof that is as long as those of the tree, for the
position of a leaf, is accepted for that leaf only, and only if it is the proof of the tree. -/
theorem eq_proof_of_verify (leaves : List Hash256) (proof : MerkleProof) (leaf : Hash256)
    (hLength : proof.siblings.length = (ofLeaves leaves).levels.length - 1)
    (hIndex : proof.leafIndex < leaves.length)
    (hFree : CollisionFree ((ofLeaves leaves).hashed ++ proof.hashed leaf))
    (hVerify : proof.verify leaf (ofLeaves leaves).root = true) :
    leaf = leaves[proof.leafIndex] ∧ (ofLeaves leaves).proof? proof.leafIndex = some proof := by
  have hPos := length_levelsFrom_pos leaves.length leaves
  have hCount : proof.siblings.length + 1 = (levelsFrom leaves.length leaves).length := by
    rw [hLength]
    exact Nat.sub_add_cancel hPos
  obtain ⟨hLeaf, hSiblings⟩ := eq_of_climb_eq_root (Nat.le_refl _)
    (List.getElem?_eq_getElem hIndex) hCount hFree (beq_iff_eq.1 hVerify)
  refine ⟨hLeaf, ?_⟩
  rw [proof?_ofLeaves, if_pos hIndex, ← hSiblings]

end MerkleTree

namespace Sample

/-- Three leaves, the last of which has no partner but itself. -/
def threeLeaves : List Hash256 := [FixedBytes.ofNat 1, FixedBytes.ofNat 2, FixedBytes.ofNat 3]

/-- The way from the last of the three leaves to the root. -/
def lastWay : MerkleProof :=
  ⟨2, [FixedBytes.ofNat 3, pairHash (FixedBytes.ofNat 1) (FixedBytes.ofNat 2)]⟩

/-- The tree has a way for the last of the three leaves, which leads to the root. -/
theorem exists_proof_threeLeaves :
    threeLeaves[2]? = some (FixedBytes.ofNat 3) ∧
      ∃ proof, (MerkleTree.ofLeaves threeLeaves).proof? 2 = some proof ∧
        proof.siblings.length + 1 = 3 ∧
        proof.verify (FixedBytes.ofNat 3) (MerkleTree.ofLeaves threeLeaves).root = true := by
  have hLeaf : threeLeaves[2]? = some (FixedBytes.ofNat 3) := rfl
  obtain ⟨-, hProofs⟩ := MerkleTree.proof_leadsToRoot threeLeaves 2
  obtain ⟨proof, hProof, -, hLength, -, hVerify⟩ := hProofs _ hLeaf
  exact ⟨hLeaf, proof, hProof, hLength, hVerify⟩

/-- The way that pairs the last of the three leaves with itself is accepted, so it is that of the
tree. -/
theorem verify_lastWay :
    CollisionFree ((MerkleTree.ofLeaves threeLeaves).hashed ++ lastWay.hashed (FixedBytes.ofNat 3)) ∧
      lastWay.verify (FixedBytes.ofNat 3) (MerkleTree.ofLeaves threeLeaves).root = true ∧
      (MerkleTree.ofLeaves threeLeaves).proof? 2 = some lastWay := by
  have hLength : lastWay.siblings.length = (MerkleTree.ofLeaves threeLeaves).levels.length - 1 := rfl
  have hIndex : lastWay.leafIndex < threeLeaves.length := by decide
  have hFree : CollisionFree
      ((MerkleTree.ofLeaves threeLeaves).hashed ++ lastWay.hashed (FixedBytes.ofNat 3)) := by
    decide +kernel
  have hVerify : lastWay.verify (FixedBytes.ofNat 3) (MerkleTree.ofLeaves threeLeaves).root = true :=
    by decide +kernel
  obtain ⟨-, hProof⟩ := MerkleTree.eq_proof_of_verify threeLeaves lastWay (FixedBytes.ofNat 3)
    hLength hIndex hFree hVerify
  exact ⟨hFree, hVerify, hProof⟩

end Sample

end UtxoChain
