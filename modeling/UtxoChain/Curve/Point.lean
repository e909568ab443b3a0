import UtxoChain.Bytes.Fixed

/-!
# The curve secp256k1

The points of `y² = x³ + 7` over the field of `p` elements, a group of prime order `n`. Points are
computed with in Jacobian coordinates, in which `(x, y, z)` stands for `(x / z², y / z³)` and `z = 0`
for the neutral point, so that only reading off the coordinates takes an inverse.
-/

namespace UtxoChain.Curve

/-- The number of elements of the field. -/
def p : Nat := 0xfffffffffffffffffffffffffffffffffffffffffffffffffffffffefffffc2f

/-- The number of points of the group. -/
def n : Nat := 0xfffffffffffffffffffffffffffffffebaaedce6af48a03bbfd25e8cd0364141

/-- The power `a ^ e` modulo `m`, from the low `bits` bits of `e`. -/
def powMod (m : Nat) : Nat → Nat → Nat → Nat
  | 0, _, _ => 1 % m
  | bits + 1, a, e =>
    let r := powMod m bits (a * a % m) (e / 2)
    if e % 2 = 1 then r * a % m else r

/-- The inverse modulo a prime `m` of 256 bits, and zero for zero. -/
def inverse (m a : Nat) : Nat :=
  powMod m 256 a (m - 2)

/-- The difference modulo `p` of two numbers below `p`. -/
def subMod (a b : Nat) : Nat :=
  (a + (p - b)) % p

/-- A point in Jacobian coordinates, each below `p`. -/
structure Point where
  /-- The first coordinate, times `z²`. -/
  x : Nat
  /-- The second coordinate, times `z³`. -/
  y : Nat
  /-- The scale; zero for the neutral point. -/
  z : Nat
deriving DecidableEq, Inhabited

namespace Point

/-- The neutral point. -/
def zero : Point := ⟨1, 1, 0⟩

/-- The point with the given coordinates. -/
def ofCoordinates (x y : Nat) : Point := ⟨x, y, 1⟩

/-- The point that generates the group. -/
def generator : Point :=
  ofCoordinates 0x79be667ef9dcbbac55a06295ce870b07029bfcdb2dce28d959f2815b16f81798
    0x483ada7726a3c4655da4fbfc0e1108a8fd17b448a68554199c47d08ffb10d4b8

/-- The sum of a point and itself. -/
def double (q : Point) : Point :=
  let yy := q.y * q.y % p
  let s := 4 * q.x * yy % p
  let m := 3 * q.x * q.x % p
  let x := subMod (m * m % p) (2 * s % p)
  let y := subMod (m * subMod s x % p) (8 * yy * yy % p)
  ⟨x, y, 2 * q.y * q.z % p⟩

/-- The sum of two points. -/
def add (q r : Point) : Point :=
  if q.z = 0 then r
  else if r.z = 0 then q
  else
    let qz := q.z * q.z % p
    let rz := r.z * r.z % p
    let u := q.x * rz % p
    let v := r.x * qz % p
    let s := q.y * (rz * r.z % p) % p
    let t := r.y * (qz * q.z % p) % p
    if u = v then
      if s = t then double q else zero
    else
      let h := subMod v u
      let hh := h * h % p
      let hhh := hh * h % p
      let w := subMod t s
      let uhh := u * hh % p
      let x := subMod (subMod (w * w % p) hhh) (2 * uhh % p)
      let y := subMod (w * subMod uhh x % p) (s * hhh % p)
      ⟨x, y, h * (q.z * r.z % p) % p⟩

/-- The multiple `k * q`, from the low `bits` bits of `k`. -/
def mul : Nat → Nat → Point → Point
  | 0, _, _ => zero
  | bits + 1, k, q =>
    let r := mul bits (k / 2) (double q)
    if k % 2 = 1 then add r q else r

/-- The coordinates of a point that is not neutral. -/
def coordinates? (q : Point) : Option (Nat × Nat) :=
  if q.z = 0 then none
  else
    let i := inverse p q.z
    let ii := i * i % p
    some (q.x * ii % p, q.y * (ii * i % p) % p)

/-- The compressed form: the parity of the second coordinate and the first coordinate. The neutral
point, which has none, gives zeros. -/
def compress (q : Point) : PublicKey :=
  match q.coordinates? with
  | some (x, y) => FixedBytes.ofNat ((2 + y % 2) * Bytes.bound 32 + x)
  | none => FixedBytes.zero

/-- The point of a compressed form: the leading byte is 2 or 3, the first coordinate is below `p`,
and the equation has a solution. -/
def decompress? (key : PublicKey) : Option Point :=
  let parity := key.toNat / Bytes.bound 32
  let x := key.toNat % Bytes.bound 32
  if parity ≠ 2 ∧ parity ≠ 3 then none
  else if p ≤ x then none
  else
    let yy := (x * x % p * x + 7) % p
    let y := powMod p 256 yy ((p + 1) / 4)
    if y * y % p ≠ yy then none
    else some (ofCoordinates x (if y % 2 = parity % 2 then y else subMod 0 y))

end Point

end UtxoChain.Curve
