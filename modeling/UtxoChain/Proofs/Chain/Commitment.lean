import UtxoChain.Proofs.Chain.Merkle
import UtxoChain.Proofs.Chain.Reading
import UtxoChain.Proofs.Ledger.Conservation

/-!
# What a block id commits to

A block id is a hash of the header, which holds the Merkle root of the transactions. The root alone
would not tell a list of transactions from one that repeats its last, but only one of the two can be
accepted: the transactions of an accepted block are distinct. `Block.eq_of_id_eq` concludes that an id
belongs to one accepted block only, unless two of the strings hashed collide. A transaction of 64 bytes
is left out: it could pass for a pair of nodes, and so the leaves of one block for the inner nodes of
another.
-/

namespace UtxoChain.Block

/-- The strings that are hashed in computing the id of a block, the ids of its transactions and their
Merkle root. -/
def hashed (block : Block) : List Bytes :=
  block.header.encode :: block.txs.map Tx.encode
    ++ (MerkleTree.ofLeaves (block.txs.map Tx.id)).hashed

section Accepted

variable {rules : Rules} {lookup : OutputLookup} {block : Block}
  {prev adjustment : Option BlockHeader}

/-- The bytes of a transaction are hashed. -/
theorem encode_mem_hashed {tx : Tx} (h : tx ∈ block.txs) : tx.encode ∈ block.hashed := by
  unfold hashed
  rw [List.mem_append]
  exact .inl (List.mem_cons_of_mem _ (List.mem_map_of_mem h))

/-- The ids of the transactions of an accepted block are distinct, if no two of the strings hashed
collide. -/
theorem nodup_ids_of_verify (h : block.verify rules lookup prev adjustment = .ok ())
    (hWellFormed : ∀ tx ∈ block.txs, tx.WellFormed) (hFree : CollisionFree block.hashed) :
    (block.txs.map Tx.id).Nodup := by
  refine (nodup_txs_of_verify h).map_on fun one hOne other hOther hId => ?_
  refine Tx.inverts_decoder.eq_of_encode_eq (hWellFormed one hOne) (hWellFormed other hOther) ?_
  exact hFree _ (encode_mem_hashed hOne) _ (encode_mem_hashed hOther) hId

/-- No accepted block becomes another by repeating transactions. -/
theorem not_verify_append_of_subset {repeated : List Tx} {header : BlockHeader}
    (hRepeated : repeated ≠ []) (hSubset : repeated ⊆ block.txs) :
    (⟨header, block.txs ++ repeated⟩ : Block).verify rules lookup prev adjustment ≠ .ok () := by
  intro h
  obtain ⟨tx, hTx⟩ := List.exists_mem_of_ne_nil _ hRepeated
  exact (List.nodup_append.1 (nodup_txs_of_verify h)).2.2 tx (hSubset hTx) tx hTx rfl

end Accepted

/-- Ids of transactions that are a level of the tree of another block are its leaves, unless one of
the transactions has 64 bytes or two of the strings hashed collide. -/
theorem ids_eq_of_mem_levels {one other : Block} (hTxs : one.txs ≠ [])
    (hLength : ∀ tx ∈ one.txs, tx.encode.length ≠ 64)
    (hFree : CollisionFree (one.hashed ++ other.hashed))
    (hMem : one.txs.map Tx.id ∈ (MerkleTree.ofLeaves (other.txs.map Tx.id)).levels) :
    one.txs.map Tx.id = other.txs.map Tx.id := by
  rcases MerkleTree.eq_or_exists_pairUp (Nat.le_refl _) hMem with hSame | ⟨below, hBelow, hPair⟩
  · exact hSame
  · -- The id of a transaction would be the hash of a pair, so the transaction would be that pair.
    exfalso
    obtain ⟨tx, hTx⟩ := List.exists_mem_of_ne_nil _ hTxs
    have hId := List.mem_map_of_mem (f := Tx.id) hTx
    rw [hPair, MerkleTree.pairUp_eq_map, List.mem_map] at hId
    obtain ⟨string, hString, hHash⟩ := hId
    have hHashed : string ∈ other.hashed := by
      unfold hashed
      rw [List.mem_append]
      exact .inr (List.mem_flatMap.2 ⟨below, hBelow, hString⟩)
    have hEncode : string = tx.encode :=
      hFree _ (List.mem_append_right _ hHashed) _ (List.mem_append_left _ (encode_mem_hashed hTx))
        hHash
    refine hLength tx hTx ?_
    rw [← hEncode]
    exact MerkleTree.length_of_mem_pairStrings hString

/-- Blocks of distinct transactions with one Merkle root have the same transaction ids, unless one of
the transactions has 64 bytes or two of the strings hashed collide. -/
theorem ids_eq_of_merkleRoot_eq {one other : Block} (hOne : one.txs ≠ []) (hOther : other.txs ≠ [])
    (hNodupOne : (one.txs.map Tx.id).Nodup) (hNodupOther : (other.txs.map Tx.id).Nodup)
    (hLength : ∀ tx ∈ one.txs ++ other.txs, tx.encode.length ≠ 64)
    (hFree : CollisionFree (one.hashed ++ other.hashed)) (hRoot : one.merkleRoot = other.merkleRoot) :
    one.txs.map Tx.id = other.txs.map Tx.id := by
  have hTrees : CollisionFree ((MerkleTree.ofLeaves (one.txs.map Tx.id)).hashed ++
      (MerkleTree.ofLeaves (other.txs.map Tx.id)).hashed) := by
    refine hFree.mono (List.append_subset.2 ⟨?_, ?_⟩)
    · exact List.subset_append_of_subset_left _ (List.subset_append_right _ _)
    · exact List.subset_append_of_subset_right _ (List.subset_append_right _ _)
  -- The ids of one block are a level of the tree of the other, and only the leaves can be that.
  rcases MerkleTree.mem_levels_of_root_eq (Nat.le_refl _) (Nat.le_refl _) (by simpa using hOne)
    (by simpa using hOther) hNodupOne hNodupOther hTrees hRoot with hMem | hMem
  · exact ids_eq_of_mem_levels hOne (fun tx hTx => hLength tx (by simp [hTx])) hFree hMem
  · refine (ids_eq_of_mem_levels hOther (fun tx hTx => hLength tx (by simp [hTx])) ?_ hMem).symm
    refine hFree.mono ?_
    exact List.append_subset.2 ⟨List.subset_append_right _ _, List.subset_append_left _ _⟩

/-- Blocks with the same transaction ids have the same transactions, if these are well-formed and no
two of the strings hashed collide. -/
theorem txs_eq_of_ids_eq {one other : Block} (hOne : ∀ tx ∈ one.txs, tx.WellFormed)
    (hOther : ∀ tx ∈ other.txs, tx.WellFormed) (hFree : CollisionFree (one.hashed ++ other.hashed))
    (hIds : one.txs.map Tx.id = other.txs.map Tx.id) : one.txs = other.txs := by
  have hCount : one.txs.length = other.txs.length := by simpa using congrArg List.length hIds
  refine List.ext_getElem hCount fun position hLeft hRight => ?_
  have hMemOne := List.getElem_mem hLeft
  have hMemOther := List.getElem_mem hRight
  refine Tx.inverts_decoder.eq_of_encode_eq (hOne _ hMemOne) (hOther _ hMemOther) ?_
  have hSame := List.getElem_of_eq hIds (by simpa using hLeft : position < _)
  rw [List.getElem_map, List.getElem_map] at hSame
  exact hFree _ (List.mem_append_left _ (encode_mem_hashed hMemOne)) _
    (List.mem_append_right _ (encode_mem_hashed hMemOther)) hSame

/-- Accepted blocks with one id are the same block, if their scripts are well-formed, none of their
transactions has 64 bytes, and no two of the strings hashed for them collide. In particular no accepted
block becomes another by repeating its last transactions, although the Merkle root may stay. -/
theorem eq_of_id_eq (rules rules' : Rules) (lookup lookup' : OutputLookup) (one other : Block)
    (prev adjustment prev' adjustment' : Option BlockHeader)
    (hOne : one.verify rules lookup prev adjustment = .ok ())
    (hOther : other.verify rules' lookup' prev' adjustment' = .ok ())
    (hWellFormed : ∀ tx ∈ one.txs ++ other.txs, tx.WellFormed)
    (hLength : ∀ tx ∈ one.txs ++ other.txs, tx.encode.length ≠ 64)
    (hFree : CollisionFree (one.hashed ++ other.hashed)) (hId : one.id = other.id) :
    (one.header = other.header ∧ one.txs = other.txs) ∧
      (∀ repeated, repeated ≠ [] → repeated <:+ one.txs →
        ∀ (rules : Rules) (lookup : OutputLookup) (header : BlockHeader)
          (prev adjustment : Option BlockHeader),
          (⟨header, one.txs ++ repeated⟩ : Block).verify rules lookup prev adjustment ≠ .ok ()) ∧
      ∀ mint a b : Tx, merkleRootOf [mint, a, b, b] = merkleRootOf [mint, a, b] := by
  have hWellFormedOne : ∀ tx ∈ one.txs, tx.WellFormed := fun tx hTx => hWellFormed tx (by simp [hTx])
  have hWellFormedOther : ∀ tx ∈ other.txs, tx.WellFormed :=
    fun tx hTx => hWellFormed tx (by simp [hTx])
  obtain ⟨-, hFrameOne, -, -⟩ := (verify_eq_ok_iff _ _ _ _ _).1 hOne
  obtain ⟨-, hFrameOther, -, -⟩ := (verify_eq_ok_iff _ _ _ _ _).1 hOther
  have hHeader : one.header = other.header := by
    refine BlockHeader.inverts_decoder.eq_of_encode_eq trivial trivial ?_
    exact hFree _ (by simp [hashed]) _ (by simp [hashed]) hId
  have hRoot : one.merkleRoot = other.merkleRoot := by
    rw [hFrameOne.merkleRoot_eq, hFrameOther.merkleRoot_eq, hHeader]
  have hNodupOne := nodup_ids_of_verify hOne hWellFormedOne
    (hFree.mono (List.subset_append_left _ _))
  have hNodupOther := nodup_ids_of_verify hOther hWellFormedOther
    (hFree.mono (List.subset_append_right _ _))
  have hIds : one.txs.map Tx.id = other.txs.map Tx.id :=
    ids_eq_of_merkleRoot_eq hFrameOne.txs_ne_nil hFrameOther.txs_ne_nil hNodupOne hNodupOther hLength
      hFree hRoot
  have hTxs : one.txs = other.txs := txs_eq_of_ids_eq hWellFormedOne hWellFormedOther hFree hIds
  refine ⟨⟨hHeader, hTxs⟩, fun repeated hRepeated hSuffix _ _ _ _ _ => ?_, fun mint a b => ?_⟩
  · exact not_verify_append_of_subset hRepeated hSuffix.subset
  · have hFront : [mint.id, a.id] ≠ [] := by simp
    exact MerkleTree.root_repeat_last hFront b.id (by simp)

end UtxoChain.Block

namespace UtxoChain.Sample

/-- More outputs than the block of two transactions needs. -/
def knownMore : OutputSet := known.insert ⟨FixedBytes.ofNat 2, 0⟩ ⟨1, lock⟩

/-- The block of two transactions, which is accepted whether more is known or not, is not accepted with
its last transaction repeated. -/
theorem not_verify_append_spend :
    block.verify rules known.get? none none = .ok () ∧
      block.verify rules knownMore.get? none none = .ok () ∧
      CollisionFree (block.hashed ++ block.hashed) ∧
      ∀ (rules : Rules) (lookup : OutputLookup) (header : BlockHeader)
        (prev adjustment : Option BlockHeader),
        (⟨header, block.txs ++ [spend]⟩ : Block).verify rules lookup prev adjustment ≠ .ok () := by
  have hMore : block.verify rules knownMore.get? none none = .ok () := by decide +kernel
  have hWellFormed : ∀ tx ∈ block.txs ++ block.txs, tx.WellFormed := by decide +kernel
  have hLength : ∀ tx ∈ block.txs ++ block.txs, tx.encode.length ≠ 64 := by decide +kernel
  have hFree : CollisionFree (block.hashed ++ block.hashed) := by
    have hOnce : CollisionFree block.hashed := by decide +kernel
    exact hOnce.mono (List.append_subset.2 ⟨List.Subset.refl _, List.Subset.refl _⟩)
  obtain ⟨-, hRepeated, -⟩ := Block.eq_of_id_eq rules rules known.get? knownMore.get? block block none
    none none none verify_block hMore hWellFormed hLength hFree rfl
  exact ⟨verify_block, hMore, hFree, hRepeated [spend] (by simp) ⟨[mint], rfl⟩⟩

end UtxoChain.Sample
