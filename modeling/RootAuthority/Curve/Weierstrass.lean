import RootAuthority.Der.Compact
import RootAuthority.Modular

/-!
# Signatures on the curves P-256 and P-384

Points are pairs of coordinates modulo a prime, with `none` for the point at infinity; the second
coefficient of both curves is -3. A signature is a pair of numbers: it holds for a digest and a
public point if a sum of multiples of the base point and the public point has the first number as
its first coordinate.
-/

namespace RootAuthority.Curve

open Der

/-- A curve `y² = x³ - 3x + b` over the integers modulo a prime, with a base point of prime order. -/
structure Weierstrass where
  prime : Nat
  b : Nat
  baseX : Nat
  baseY : Nat
  order : Nat
  /-- The octets of a coordinate. -/
  size : Nat

namespace Weierstrass

/-- The curve P-256. -/
def p256 : Weierstrass where
  prime := 0xffffffff00000001000000000000000000000000ffffffffffffffffffffffff
  b := 0x5ac635d8aa3a93e7b3ebbd55769886bc651d06b0cc53b0f63bce3c3e27d2604b
  baseX := 0x6b17d1f2e12c4247f8bce6e563a440f277037d812deb33a0f4a13945d898c296
  baseY := 0x4fe342e2fe1a7f9b8ee7eb4a7c0f9e162bce33576b315ececbb6406837bf51f5
  order := 0xffffffff00000000ffffffffffffffffbce6faada7179e84f3b9cac2fc632551
  size := 32

/-- The curve P-384. -/
def p384 : Weierstrass where
  prime := 0xfffffffffffffffffffffffffffffffffffffffffffffffffffffffffffffffeffffffff0000000000000000ffffffff
  b := 0xb3312fa7e23ee7e4988e056be3f82d19181d9c6efe8141120314088f5013875ac656398d8a2ed19d2a85c8edd3ec2aef
  baseX := 0xaa87ca22be8b05378eb1c71ef320ad746e1d3b628ba79b9859f741e082542a385502f25dbf55296c3a545e3872760ab7
  baseY := 0x3617de4a96262c6f5d9e98bf9292dc29f8f41dbd289a147ce9da3113b5f0b8c00a60b1ce1d7e819d7a431d7c90ea0e5f
  order := 0xffffffffffffffffffffffffffffffffffffffffffffffffc7634d81f4372ddf581a0db248b0a77aecec196accc52973
  size := 48

/-- A point of a curve; `none` is the point at infinity. -/
abbrev Point := Option (Nat × Nat)

/-- The pair of coordinates lies on the curve. -/
def isOn (c : Weierstrass) (x y : Nat) : Bool :=
  x < c.prime && y < c.prime
    && y * y % c.prime = (x * x * x + (c.prime - 3) * x + c.b) % c.prime

/-- The line through two points with slope `m` meets the curve again; the reflection of that
    point. -/
def third (c : Weierstrass) (m x1 y1 x2 : Nat) : Nat × Nat :=
  let p := c.prime
  let x3 := (m * m + (p - x1) + (p - x2)) % p
  (x3, (m * (x1 + (p - x3)) + (p - y1)) % p)

/-- **The sum of two points.** -/
def add (c : Weierstrass) : Point → Point → Point
  | none, q => q
  | p, none => p
  | some (x1, y1), some (x2, y2) =>
    let p := c.prime
    if x1 = x2 then
      if (y1 + y2) % p = 0 then none
      else
        let m := (3 * x1 * x1 + (p - 3)) * Modular.inverse (2 * y1) p % p
        some (c.third m x1 y1 x2)
    else
      let m := (y2 + (p - y1)) * Modular.inverse (x2 + (p - x1)) p % p
      some (c.third m x1 y1 x2)

/-- The `k`-fold of a point, by doubling. -/
def multiple (c : Weierstrass) (k : Nat) (q : Point) : Point :=
  if k = 0 then none
  else
    let half := multiple c (k / 2) (c.add q q)
    if k % 2 = 1 then c.add q half else half
termination_by k

/-- The public point from its octets, both coordinates written out. -/
def pointOf? (c : Weierstrass) : Octets → Option Point
  | 4 :: bs => do
    let (x, rest) ← Octets.splitAt? c.size bs
    let (y, rest) ← Octets.splitAt? c.size rest
    if rest.isEmpty ∧ c.isOn (Octets.toNat x) (Octets.toNat y) then
      return some (Octets.toNat x, Octets.toNat y)
    else none
  | _ => none

/-- The two numbers of a signature. -/
def signatureOf? (bs : Octets) : Option (Nat × Nat) := do
  let content ← Compact.only 0x30 bs
  let (r, rest) ← Compact.readPositive content
  let (s, rest) ← Compact.readPositive rest
  if rest.isEmpty then return (r, s) else none

/-- **Checks a signature** over a digest, of which the first octets count if it is longer than a
    coordinate. -/
def verify (c : Weierstrass) (key digest signature : Octets) : Bool :=
  match c.pointOf? key, signatureOf? signature with
  | some q, some (r, s) =>
    if c.order ≤ r ∨ c.order ≤ s then false
    else
      let e := Octets.toNat (digest.take c.size)
      let w := Modular.inverse s c.order
      let base : Point := some (c.baseX, c.baseY)
      match c.add (c.multiple (e * w % c.order) base) (c.multiple (r * w % c.order) q) with
      | some (x, _) => x % c.order = r
      | none => false
  | _, _ => false

end Weierstrass

end RootAuthority.Curve
