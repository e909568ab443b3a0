import UtxoChain.Curve.Point
import UtxoChain.Digest.Sha256

/-!
# ECDSA

A signature of a digest is a pair of scalars `(r, s)`. The nonce is derived from the secret and the
digest as RFC 6979 says, so a digest and a secret have one signature. Of `s` and `n - s`, which are
both valid, only the one of at most half the order is written and accepted.
-/

namespace UtxoChain.Ecdsa

open UtxoChain.Curve

/-- The key and the value from which nonces are drawn. -/
structure NonceState where
  /-- The key of the keyed hash. -/
  key : Bytes
  /-- The last value drawn. -/
  value : Bytes

namespace NonceState

/-- Mixes a marker and a text into the key, and the key into the value. -/
def reseed (state : NonceState) (marker : UInt8) (text : Bytes) : NonceState :=
  let key := Sha256.hmac state.key (state.value ++ marker :: text)
  ⟨key, Sha256.hmac key state.value⟩

/-- The state for a secret and a digest, both of 32 bytes. -/
def seeded (secret digest : Bytes) : NonceState :=
  let start : NonceState := ⟨List.replicate 32 0, List.replicate 32 1⟩
  (start.reseed 0 (secret ++ digest)).reseed 1 (secret ++ digest)

/-- The state after the next candidate has been drawn into the value. -/
def draw (state : NonceState) : NonceState :=
  ⟨state.key, Sha256.hmac state.key state.value⟩

/-- The state after a candidate has been refused. -/
def refuse (state : NonceState) : NonceState :=
  state.reseed 0 []

end NonceState

/-- A number from 1 to `n - 1`. -/
def isScalar (k : Nat) : Bool :=
  0 < k && k < n

/-- The signature with the given nonce, if that one can be used. -/
def signWith? (nonce secret digest : Nat) : Option (Nat × Nat) := do
  guard (isScalar nonce)
  let (x, _) ← (Point.mul 256 nonce .generator).coordinates?
  let r := x % n
  let s := inverse n nonce * ((digest + r * secret) % n) % n
  guard (r ≠ 0 ∧ s ≠ 0)
  return (r, if n / 2 < s then n - s else s)

/-- The signature with the first nonce that can be used. A candidate fails with a probability of
about `2 ^ -127`, so the number of tries that is given to it is never exhausted. -/
def signFrom (secret digest : Nat) : Nat → NonceState → Nat × Nat
  | 0, _ => (0, 0)
  | tries + 1, state =>
    let drawn := state.draw
    match signWith? (Bytes.toNatBE drawn.value) secret digest with
    | some signature => signature
    | none => signFrom secret digest tries drawn.refuse

/-- The signature of a digest by a secret from 1 to `n - 1`. -/
def sign (secret digest : Hash256) : CompactSignature :=
  let reduced : Hash256 := FixedBytes.ofNat (digest.toNat % n)
  let seed := NonceState.seeded secret.toBytes reduced.toBytes
  let (r, s) := signFrom secret.toNat (digest.toNat % n) 64 seed
  FixedBytes.ofNat (r * Bytes.bound 32 + s)

/-- The public key of a secret from 1 to `n - 1`. -/
def publicKey (secret : Hash256) : PublicKey :=
  (Point.mul 256 secret.toNat .generator).compress

/-- The signature is the one that the owner of the key makes for the digest. -/
def verify (digest : Hash256) (signature : CompactSignature) (key : PublicKey) : Bool :=
  let r := signature.toNat / Bytes.bound 32
  let s := signature.toNat % Bytes.bound 32
  match Point.decompress? key with
  | none => false
  | some q =>
    if isScalar r && isScalar s && s ≤ n / 2 then
      let i := inverse n s
      let u := digest.toNat % n * i % n
      let v := r * i % n
      match (Point.add (.mul 256 u .generator) (.mul 256 v q)).coordinates? with
      | some (x, _) => x % n == r
      | none => false
    else false

end UtxoChain.Ecdsa
