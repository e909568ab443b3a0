import UtxoChain.Chain.Block
import UtxoChain.Proofs.Tx.Reading

/-!
# Reading headers and blocks

Every header is read from its encoding, which has the same length for all of them. A block is read
from its encoding if its transactions are well-formed.
-/

namespace UtxoChain

open Decoder Stateful

namespace BlockHeader

/-- A header is read from its encoding. -/
theorem inverts_decoder : Inverts decoder encode fun _ : BlockHeader => True := by
  intro start header stop
  rw [true_and]
  -- Bracketed to the right, the parts are taken one at a time.
  have hParts : header.encode = Bytes.ofNatBE 4 header.version.toNat ++ (header.prevBlockId.toBytes
      ++ (header.merkleRoot.toBytes ++ (Bytes.ofNatBE 8 header.timestamp.toNat
      ++ (header.target.toBytes ++ (header.nonce.toBytes
      ++ Bytes.ofNatBE 8 header.index.toNat))))) := by
    simp [encode]
  rw [hParts]
  unfold decoder
  simp only [bind_ok_iff, word32_ok_iff, word64_ok_iff, fixed_ok_iff, pure_ok_iff,
    Cursor.took_append_iff]
  constructor
  · rintro ⟨version, one, hVersion, prev, two, hPrev, root, three, hRoot, time, four, hTime, target,
      five, hTarget, nonce, six, hNonce, index, _, hIndex, rfl, rfl⟩
    exact ⟨one, hVersion, two, hPrev, three, hRoot, four, hTime, five, hTarget, six, hNonce, hIndex⟩
  · rintro ⟨one, hVersion, two, hPrev, three, hRoot, four, hTime, five, hTarget, six, hNonce, hIndex⟩
    exact ⟨_, one, hVersion, _, two, hPrev, _, three, hRoot, _, four, hTime, _, five, hTarget, _, six,
      hNonce, _, stop, hIndex, rfl, rfl⟩

end BlockHeader

namespace Block

/-- The transactions of a block are well-formed, and their number is one of 64 bits. -/
structure WellFormed (block : Block) : Prop where
  /-- The transactions can stand after their number. -/
  txs_length_lt : block.txs.length < 2 ^ 64
  /-- Each transaction is well-formed. -/
  txs : ∀ tx ∈ block.txs, tx.WellFormed

instance : DecidablePred WellFormed := fun block =>
  decidable_of_iff (block.txs.length < 2 ^ 64 ∧ ∀ tx ∈ block.txs, tx.WellFormed)
    ⟨fun h => ⟨h.1, h.2⟩, fun h => ⟨h.txs_length_lt, h.txs⟩⟩

/-- A block of well-formed transactions is read from its encoding. -/
theorem inverts_decoder : Inverts decoder encode WellFormed := by
  intro start block stop
  unfold decoder encode
  simp only [bind_ok_iff, BlockHeader.inverts_decoder _ _ _, counted_ok_iff Tx.inverts_decoder,
    pure_ok_iff, Cursor.took_append_iff]
  constructor
  · rintro ⟨header, middle, ⟨-, hHeader⟩, txs, _, ⟨⟨hLength, hWellFormed⟩, hTxs⟩, rfl, rfl⟩
    exact ⟨⟨hLength, hWellFormed⟩, middle, hHeader, hTxs⟩
  · rintro ⟨⟨hLength, hWellFormed⟩, middle, hHeader, hTxs⟩
    exact ⟨block.header, middle, ⟨trivial, hHeader⟩, block.txs, stop, ⟨⟨hLength, hWellFormed⟩, hTxs⟩,
      rfl, rfl⟩

end Block

end UtxoChain
