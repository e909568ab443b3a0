import UtxoChain.Digest.Double
import UtxoChain.Script.Chunk

/-!
# Script templates

The forms of scripts that the rules and the wallet know: outputs locked to the hash of a public key,
with or without an expiry, the inputs that spend them, and the input of a mint transaction.
-/

namespace UtxoChain.Script

/-- A chunk that pushes nothing but a number. -/
def pushesNumber (chunk : Chunk) : Bool :=
  match chunk.op? with
  | some op => op == .op0 || op == .negate1 || op.smallInt?.isSome
  | none => false

/-- Every chunk pushes a payload or a number. -/
def isPushOnly (script : Script) : Bool :=
  script.chunks.all fun chunk => chunk.isPush || pushesNumber chunk

/-- The chunk that pushes a hash. -/
def pushHash (hash : Hash256) : Chunk :=
  ⟨Opcode.pushData1.toByte, some hash.toBytes⟩

/-- The output that a signature under the key of the given hash unlocks. -/
def pubKeyHashOutput (hash : Hash256) : Script :=
  ⟨[.ofOpcode .dup, .ofOpcode .doubleBlake3, pushHash hash, .ofOpcode .equalVerify,
    .ofOpcode .checkSig]⟩

/-- The input that unlocks such an output: the signature, then the key. -/
def pubKeyHashInput (signature key : Bytes) : Except Error Script := do
  return ⟨[← Chunk.ofData signature, ← Chunk.ofData key]⟩

/-- The output that the key of the given hash unlocks, and anyone once the relative lock has
passed. -/
def expirableOutput (hash : Hash256) (lockRel : UInt32) : Except Error Script := do
  let lock ← Chunk.ofNumber lockRel.toNat
  return ⟨[.ofOpcode .dup, .ofOpcode .doubleBlake3, pushHash hash, .ofOpcode .equal,
    .ofOpcode .ifOp, .ofOpcode .checkSig, .ofOpcode .elseOp, lock,
    .ofOpcode .checkLockRelVerify, .ofOpcode .drop, .ofOpcode .op1, .ofOpcode .endIfOp]⟩

/-- The input that spends an expired output. -/
def expiredInput : Script :=
  ⟨[.ofOpcode .op0]⟩

/-- The input of a mint transaction: the index of its block, and then any further data. -/
def mintInput (blockIndex : UInt64) (extra : Bytes) : Except Error Script := do
  let index ← Chunk.ofNumber blockIndex.toNat
  if extra.isEmpty then return ⟨[index]⟩ else return ⟨[index, ← Chunk.ofData extra]⟩

/-- The first chunk is the one that pushes the index of the block. -/
def startsWithBlockIndex (script : Script) (blockIndex : UInt64) : Bool :=
  match Chunk.ofNumber blockIndex.toNat with
  | .ok expected => script.chunks.head? == some expected
  | .error _ => false

/-- The hash that a chunk pushes. -/
def pushedHash? (chunk : Chunk) : Option Hash256 :=
  chunk.payload.bind FixedBytes.ofBytes?

/-- The hash to which an output is locked. The opcodes are those of the template; the hash may be
pushed by any push opcode. -/
def pubKeyHash? (script : Script) : Option Hash256 :=
  match script.chunks with
  | [dup, digest, hash, equal, check] =>
    if [dup.op?, digest.op?, equal.op?, check.op?]
        = [some .dup, some .doubleBlake3, some .equalVerify, some .checkSig] then
      pushedHash? hash
    else none
  | _ => none

/-- The relative lock that a chunk pushes: the shortest form of a number of 32 bits, or an opcode
for 0 to 16. -/
def pushedLock? (chunk : Chunk) : Option UInt32 :=
  match chunk.payload, chunk.op?.bind Opcode.smallInt? with
  | some data, _ =>
    match ScriptNumber.decode data >>= ScriptNumber.toWord .word32 with
    | .ok lock => some (UInt32.ofNat lock)
    | .error _ => none
  | none, some n => some (UInt32.ofNat n)
  | none, none => if chunk.op? = some .op0 then some 0 else none

/-- The hash and the relative lock of an output that expires. -/
def expirableParts? (script : Script) : Option (Hash256 × UInt32) :=
  match script.chunks with
  | [dup, digest, hash, equal, ifChunk, check, elseChunk, lock, lockVerify, drop, one, endIf] =>
    if [dup.op?, digest.op?, equal.op?, ifChunk.op?, check.op?, elseChunk.op?, lockVerify.op?,
          drop.op?, one.op?, endIf.op?]
        = [some .dup, some .doubleBlake3, some .equal, some .ifOp, some .checkSig, some .elseOp,
          some .checkLockRelVerify, some .drop, some .op1, some .endIfOp] then do
      return (← pushedHash? hash, ← pushedLock? lock)
    else none
  | _ => none

/-- The hash of the key whose signature unlocks an output of either form. -/
def signingHash? (script : Script) : Option Hash256 :=
  script.pubKeyHash?.or (script.expirableParts?.map (·.1))

/-- The script is two pushes, as the input that unlocks such an output. -/
def isPubKeyHashInput (script : Script) : Bool :=
  match script.chunks with
  | [signature, key] => signature.isPush && key.isPush
  | _ => false

/-- The script is the input that spends an expired output. -/
def isExpiredInput (script : Script) : Bool :=
  match script.chunks with
  | [chunk] => chunk.op? == some .op0
  | _ => false

end UtxoChain.Script
