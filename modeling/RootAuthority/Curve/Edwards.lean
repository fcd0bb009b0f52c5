import RootAuthority.Digest.Sha512
import RootAuthority.Modular

/-!
# Signatures on the twisted Edwards curve of 255 bits

Points satisfy `y² - x² = 1 + d x² y²` modulo `2²⁵⁵ - 19` and are written as the second coordinate,
least significant octet first, with the lowest bit of the first coordinate on top. A signature is a
point and a number; it holds if the number times the base point, less a digest times the public
point, is written as that point.
-/

namespace RootAuthority.Curve.Edwards

/-- The prime `2²⁵⁵ - 19`. -/
def prime : Nat := (1 <<< 255) - 19

/-- The order of the base point. -/
def order : Nat := (1 <<< 252) + 27742317777372353535851937790883648493

/-- The coefficient of the curve. -/
def d : Nat := 37095705934669439343138083508754565189542113879843219016388785533085940283555

/-- The base point. -/
def base : Nat × Nat :=
  (15112221349535400772501151409588531511454012693041857206046113283949847762202,
   46316835694926478169428394003475163141307993866256225615783033603165251855960)

/-- **The sum of two points.** -/
def add (a b : Nat × Nat) : Nat × Nat :=
  let (x1, y1) := a
  let (x2, y2) := b
  let t := d * (x1 * x2 % prime) % prime * (y1 * y2 % prime) % prime
  let x := (x1 * y2 + x2 * y1) * Modular.inverse (1 + t) prime % prime
  let y := (y1 * y2 + x1 * x2) * Modular.inverse (1 + (prime - t)) prime % prime
  (x, y)

/-- The `k`-fold of a point, by doubling. -/
def multiple (k : Nat) (q : Nat × Nat) : Nat × Nat :=
  if k = 0 then (0, 1)
  else
    let half := multiple (k / 2) (add q q)
    if k % 2 = 1 then add q half else half
termination_by k

/-- The number spelled by octets, least significant first. -/
def littleEndian (bs : Octets) : Nat := Octets.toNat bs.reverse

/-- A square root of `u / v` modulo the prime, if there is one. -/
def rootOfQuotient? (u v : Nat) : Option Nat :=
  let v3 := v * v % prime * v % prime
  let v7 := v3 * v3 % prime * v % prime
  let x := u * v3 % prime * Modular.pow prime (u * v7 % prime) ((prime - 5) / 8) % prime
  let square := v * (x * x % prime) % prime
  if square = u % prime then some x
  else if (square + u) % prime = 0 then
    some (x * Modular.pow prime 2 ((prime - 1) / 4) % prime)
  else none

/-- The point written by thirty-two octets. -/
def pointOf? (bs : Octets) : Option (Nat × Nat) :=
  if bs.length ≠ 32 then none
  else
    let n := littleEndian bs
    let y := n % (1 <<< 255) % prime
    let u := (y * y + (prime - 1)) % prime
    let v := (d * (y * y % prime) + 1) % prime
    (rootOfQuotient? u v).map fun x =>
      (if x % 2 = n / (1 <<< 255) then x else (prime - x) % prime, y)

/-- The octets that write a point. -/
def encode (q : Nat × Nat) : Octets := (Octets.ofNat 32 (q.2 + q.1 % 2 * (1 <<< 255))).reverse

/-- **Checks a signature** over a message. -/
def verify (key message signature : Octets) : Bool :=
  match pointOf? key with
  | none => false
  | some (x, y) =>
    if signature.length ≠ 64 then false
    else
      let r := signature.take 32
      let s := littleEndian (signature.drop 32)
      let k := littleEndian (Digest.sha512 (r ++ key ++ message)) % order
      s < order && encode (add (multiple s base) (multiple k ((prime - x) % prime, y))) = r

end RootAuthority.Curve.Edwards
