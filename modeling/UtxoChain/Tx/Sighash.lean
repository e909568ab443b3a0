import UtxoChain.Signature.Scheme
import UtxoChain.Tx.Format

/-!
# Signature digests

A signature of an input commits to parts of the transaction that its hash type selects. The parts are
written into a preimage, whose double hash is signed. Input scripts are in no preimage, since the
signatures go into them.

The preimage holds three digests over the whole transaction. `preimageWith` takes them from a
function, so that they can be computed anew (`Tx.preimage`) or remembered (`DigestCache`).
-/

namespace UtxoChain

/-- The byte that selects what a signature commits to. -/
structure SighashType where
  /-- The byte. -/
  byte : UInt8
deriving DecidableEq

namespace SighashType

/-- Everything is committed to. -/
def all : SighashType := ⟨1⟩

instance : Inhabited SighashType := ⟨all⟩

/-- The bit that leaves out the other inputs. -/
def anyoneCanPayBit : UInt8 := 0x80

/-- The low five bits, which select the outputs. -/
def base (type : SighashType) : UInt8 :=
  type.byte &&& 0x1f

/-- The other inputs are left out. -/
def anyoneCanPay (type : SighashType) : Bool :=
  type.byte &&& anyoneCanPayBit != 0

/-- No outputs are committed to. -/
def isNone (type : SighashType) : Bool :=
  type.base == 2

/-- Only the output at the position of the input is committed to. -/
def isSingle (type : SighashType) : Bool :=
  type.base == 3

/-- The type that also leaves out the other inputs. -/
def withAnyoneCanPay (type : SighashType) : SighashType :=
  ⟨type.byte ||| anyoneCanPayBit⟩

end SighashType

/-- A signature as it stands in an input script, with the type of its digest. -/
structure TxSignature where
  /-- What the signature commits to. -/
  hashType : SighashType
  /-- The signature of the digest. -/
  signature : CompactSignature
deriving DecidableEq

namespace TxSignature

/-- The bytes of a signature, the hash type first. -/
def toBytes (signature : TxSignature) : Bytes :=
  signature.hashType.byte :: signature.signature.toBytes

/-- The signature that 65 bytes write. -/
def ofBytes? (bytes : Bytes) : Option TxSignature :=
  match bytes with
  | [] => none
  | type :: rest => (FixedBytes.ofBytes? rest).map fun signature => ⟨⟨type⟩, signature⟩

/-- The signature that a byte string writes, if it has 65 bytes. -/
def ofBytes (bytes : Bytes) : Except Error TxSignature :=
  match ofBytes? bytes with
  | some signature => .ok signature
  | none => .error (.invalidSize (.signature bytes.length))

end TxSignature

/-- What a signature is asked for: an input, the script and the value of the output that it spends,
and the type of the digest. -/
structure SighashRequest where
  /-- The position of the input. -/
  inputIndex : Nat
  /-- The bytes of the script that locks the spent output. -/
  script : Bytes
  /-- The value of the spent output. -/
  amount : UInt64
  /-- What the signature commits to. -/
  hashType : SighashType
deriving DecidableEq

/-- The three digests over a whole transaction. -/
inductive SubHash
  /-- The outpoints of all inputs. -/
  | prevouts
  /-- The relative locks of all inputs. -/
  | lockRels
  /-- All outputs. -/
  | outputs
deriving DecidableEq

namespace SighashRequest

/-- The digests over the whole transaction that the preimage of a request holds. -/
def subHashes (request : SighashRequest) : List SubHash :=
  let type := request.hashType
  let plain := !type.isSingle && !type.isNone
  (if type.anyoneCanPay then [] else [.prevouts])
    ++ (if !type.anyoneCanPay && plain then [.lockRels] else [])
    ++ (if plain then [.outputs] else [])

end SighashRequest

namespace Tx

/-- One of the digests over the whole transaction. -/
def subHash (tx : Tx) : SubHash → Hash256
  | .prevouts => doubleHash (tx.inputs.flatMap fun input => input.point.encode)
  | .lockRels => doubleHash (tx.inputs.flatMap fun input => Bytes.ofNatBE 4 input.lockRel.toNat)
  | .outputs => doubleHash (tx.outputs.flatMap TxOut.encode)

/-- The part of a preimage that commits to outputs: all of them, the one at the position of the input
if there is one, or none. -/
def outputsPart (tx : Tx) (subHash : SubHash → Hash256) (request : SighashRequest) : Hash256 :=
  if request.hashType.isSingle then
    match tx.outputs[request.inputIndex]? with
    | some output => doubleHash output.encode
    | none => FixedBytes.zero
  else if request.hashType.isNone then FixedBytes.zero
  else subHash .outputs

/-- The bytes whose double hash is signed, with the digests over the whole transaction taken from a
function. -/
def preimageWith (tx : Tx) (subHash : SubHash → Hash256) (request : SighashRequest) :
    Except MissingInput Bytes :=
  match tx.inputs[request.inputIndex]? with
  | none => .error ⟨request.inputIndex, tx.inputs.length⟩
  | some input =>
    let type := request.hashType
    let prevouts := if type.anyoneCanPay then FixedBytes.zero else subHash .prevouts
    let lockRels :=
      if type.anyoneCanPay || type.isSingle || type.isNone then FixedBytes.zero
      else subHash .lockRels
    .ok <| [tx.version] ++ prevouts.toBytes ++ lockRels.toBytes ++ input.point.encode
      ++ Bytes.counted request.script ++ Bytes.ofNatBE 8 request.amount.toNat
      ++ Bytes.ofNatBE 4 input.lockRel.toNat ++ (tx.outputsPart subHash request).toBytes
      ++ Bytes.ofNatBE 4 tx.lockAbs.toNat ++ [type.byte]

/-- The bytes whose double hash is signed. -/
def preimage (tx : Tx) (request : SighashRequest) : Except MissingInput Bytes :=
  tx.preimageWith tx.subHash request

/-- The digest that is signed. -/
def sighash (tx : Tx) (request : SighashRequest) : Except MissingInput Hash256 :=
  (tx.preimage request).map doubleHash

/-- The signature of a request by a secret. The input is looked up before the secret is used. -/
def sign (tx : Tx) (scheme : SignatureScheme) (secret : SecretKey) (request : SighashRequest) :
    Except Error TxSignature := do
  let digest ← (tx.sighash request).mapError MissingInput.toError
  return ⟨request.hashType, ← scheme.sign digest secret⟩

/-- The signature is valid for the request under the key. The hash type is that of the request. -/
def verifySignature (tx : Tx) (scheme : SignatureScheme) (key : PublicKey)
    (signature : CompactSignature) (request : SighashRequest) : Except MissingInput Bool := do
  return scheme.verify (← tx.sighash request) signature key

end Tx

end UtxoChain
