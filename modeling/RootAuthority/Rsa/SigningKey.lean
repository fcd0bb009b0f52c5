import RootAuthority.Rsa.Padding
import RootAuthority.Rsa.PrivateKey

/-!
# Keys that signatures are made with

Signing is stricter about keys than loading them: it takes 2048 to 4096 bits, primes of half that
size, a public exponent of at least 65537, and it uses the three numbers of the container that
loading passes over. `SigningKey.ofContainer?` reads and checks such a key; `SigningKey.sign?` makes
a signature from the two halves of the key and checks the result before giving it out.
-/

namespace RootAuthority.Rsa

open Der

/-- A key with all the numbers that signing uses. -/
structure SigningKey where
  key : PrivateKey
  /-- The private exponents modulo the first and second prime less one. -/
  exponent1 : Nat
  exponent2 : Nat
  /-- The inverse of the second prime modulo the first. -/
  coefficient : Nat
deriving DecidableEq, Repr

namespace SigningKey

/-! ## 1. Reading -/

/-- The contents of the algorithm of an RSA key. -/
def algorithmContent : Octets := primitive Tag.objectId ObjectId.rsaEncryption ++ primitive Tag.null []

/-- The octets of the key in a container of the first version, with or without attributes. -/
def keyOctets? (bs : Octets) : Option Octets := do
  let content ← Compact.only 0x30 bs
  let (version, rest) ← Compact.readUnsigned content
  if version ≠ 0 then none
  else
    let (algorithm, rest) ← Compact.readTagged 0x30 rest
    if algorithm ≠ algorithmContent then none
    else
      let (key, rest) ← Compact.readTagged 0x04 rest
      match rest with
      | [] => return key
      | 0xa0 :: _ => match ← Compact.readTagged 0xa0 rest with
        | (_, []) => return key
        | _ => none
      | _ => none

/-- The numbers of a key, consistent or not. -/
def ofOctets? (bs : Octets) : Option SigningKey := do
  let content ← Compact.only 0x30 bs
  match ← Octets.readMany Compact.readUnsigned 9 content with
  | ([0, n, e, d, p, q, dp, dq, qi], []) => return ⟨⟨n, e, d, p, q⟩, dp, dq, qi⟩
  | _ => none

/-! ## 2. Checks -/

/-- Half the size of the modulus in bits, rounded up. -/
def halfBits (k : SigningKey) : Nat := (Octets.bitLength k.key.modulus + 1) / 2

/-- A prime is odd, has half the size of the modulus, and that size is a multiple of 512 bits. -/
def isPrimeSized (k : SigningKey) (p : Nat) : Bool :=
  p % 2 = 1 && 3 ≤ p && Octets.bitLength p = k.halfBits && k.halfBits % 512 = 0

/-- **The key can be signed with.** -/
def isUsable (k : SigningKey) : Bool :=
  k.key.publicKey.isUsable 2048 4096 65537
    && k.isPrimeSized k.key.prime1 && k.isPrimeSized k.key.prime2
    && k.key.prime1 * k.key.prime2 = k.key.modulus
    && k.key.privateExponent % 2 = 1 && k.key.privateExponent < k.key.modulus
    && k.halfBits < Octets.bitLength k.key.privateExponent
    && k.exponent1 % 2 = 1 && k.exponent1 < k.key.prime1
    && k.exponent2 % 2 = 1 && k.exponent2 < k.key.prime2
    && k.coefficient < k.key.prime1
    && k.coefficient * k.key.prime2 % k.key.prime1 = 1

/-- **The key to sign with in the container that a file holds.** -/
def ofContainer? (bs : Octets) : Option SigningKey := do
  let k ← ofOctets? (← keyOctets? bs)
  if k.isUsable then return k else none

/-! ## 3. Signing -/

/-- The private operation by its two halves. -/
def root (k : SigningKey) (m : Nat) : Nat :=
  let p := k.key.prime1
  let q := k.key.prime2
  let m1 := Modular.pow p (m % p) k.exponent1
  let m2 := Modular.pow q (m % q) k.exponent2
  let h := k.coefficient * (m1 + (p - m2 % p)) % p
  m2 + q * h

/-- **The signature of a message** with the fixed padding over SHA-256; nothing if the halves of the
    key do not belong together. -/
def sign? (k : SigningKey) (message : Octets) : Option Octets := do
  let width := Octets.width k.key.modulus
  let padded ← padDigest? .sha256 width message
  let m := Octets.toNat padded
  let s := k.root m
  if k.key.publicKey.raise s = m then return Octets.ofNat width s else none

end SigningKey

end RootAuthority.Rsa
