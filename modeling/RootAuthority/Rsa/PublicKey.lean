import RootAuthority.Der.Compact
import RootAuthority.Modular

/-!
# RSA public keys

A public key is a modulus and an exponent. It is written as a sequence of the two numbers
(`PublicKey.encode`), and inside certificates together with its algorithm (`PublicKey.encodeInfo`).
`PublicKey.ofDer?` reads keys to check signatures with.
-/

namespace RootAuthority.Rsa

open Der

/-- An RSA public key. -/
structure PublicKey where
  modulus : Nat
  exponent : Nat
deriving DecidableEq, Repr

namespace PublicKey

/-- The octets that a number below the modulus takes. -/
def width (k : PublicKey) : Nat := Octets.width k.modulus

/-- **The octets of a key.** -/
def encode (k : PublicKey) : Octets := sequence [integer k.modulus, integer k.exponent]

/-- The algorithm of an RSA key, with parameters that say nothing. -/
def algorithm : Octets :=
  sequence [primitive Tag.objectId ObjectId.rsaEncryption, primitive Tag.null []]

/-- **The octets of a key with its algorithm.** -/
def encodeInfo (k : PublicKey) : Octets :=
  sequence [algorithm, primitive Tag.bitString (0 :: k.encode)]

/-- The key from its octets; both numbers are positive. -/
def ofDer? (bs : Octets) : Option PublicKey := do
  let content ← Compact.only 0x30 bs
  let (n, rest) ← Compact.readPositive content
  let (e, rest) ← Compact.readPositive rest
  if rest.isEmpty then return ⟨n, e⟩ else none

/-- The modulus is odd and of the right size, rounded up to whole octets for the lower bound, and
    the exponent is odd and in its range. -/
def isUsable (k : PublicKey) (minBits maxBits minExponent : Nat) : Bool :=
  k.modulus % 2 = 1 && minBits ≤ 8 * k.width && Octets.bitLength k.modulus ≤ maxBits
    && k.exponent % 2 = 1 && minExponent ≤ k.exponent && Octets.bitLength k.exponent ≤ 33

/-- **The public operation**: raising to the exponent. -/
def raise (k : PublicKey) (m : Nat) : Nat := Modular.pow k.modulus m k.exponent

end PublicKey

end RootAuthority.Rsa
