import UtxoChain.Chain.OutputSet
import UtxoChain.Main
import UtxoChain.Proofs.Bytes.Hex
import UtxoChain.Proofs.Chain.Canonical
import UtxoChain.Proofs.Chain.Commitment
import UtxoChain.Proofs.Chain.Damage
import UtxoChain.Proofs.Chain.Documents
import UtxoChain.Proofs.Chain.HeaderRun
import UtxoChain.Proofs.Chain.MerkleHalves
import UtxoChain.Proofs.Chain.MerkleProof
import UtxoChain.Proofs.Chain.Readers
import UtxoChain.Proofs.Chain.RoundTrip
import UtxoChain.Proofs.Chain.Scaling
import UtxoChain.Proofs.Ledger.FirstFault
import UtxoChain.Proofs.Machine.Arithmetic
import UtxoChain.Proofs.Machine.FixedDepth
import UtxoChain.Proofs.Machine.OpLimit
import UtxoChain.Proofs.Machine.Standalone
import UtxoChain.Proofs.Rules.ExpirableLock
import UtxoChain.Proofs.Rules.InputScript
import UtxoChain.Proofs.Rules.KeyLock
import UtxoChain.Proofs.Rules.Proposal
import UtxoChain.Proofs.Rules.SharedCache
import UtxoChain.Proofs.Script.Number
import UtxoChain.Proofs.Script.ShortestForm
import UtxoChain.Proofs.Script.TextForm
import UtxoChain.Proofs.Tx.Preimage
import UtxoChain.Proofs.Wallet.BlockDraft
import UtxoChain.Proofs.Wallet.BuiltStructure
import UtxoChain.Proofs.Wallet.Payment
import UtxoChain.Proofs.Wallet.Resigning
import UtxoChain.Proofs.Wallet.Signing
import UtxoChain.Proofs.Wire.ShortestForm
import UtxoChain.Rules.Block
import UtxoChain.Wallet.BlockDraft
import UtxoChain.Wallet.Payment
import UtxoChain.Wallet.Signer
