import RootAuthority.Der.ObjectId
import RootAuthority.Digest.Sha1
import RootAuthority.Digest.Sha256
import RootAuthority.Digest.Sha512
import RootAuthority.Rsa.PublicKey

/-!
# RSA signatures over digests

A signature is the root of a padded digest. The first padding is fixed: a block of ones and the
digest with its name. The second is salted: the digest is hashed again with a salt, and the salt is
hidden behind a mask that the result of that determines.
-/

namespace RootAuthority.Rsa

open Der

/-- The digests that signatures use. -/
inductive DigestKind
  | sha1
  | sha256
  | sha384
  | sha512
deriving DecidableEq, Repr

namespace DigestKind

/-- The digest of a message. -/
def digest : DigestKind → Octets → Octets
  | sha1 => Digest.sha1
  | sha256 => Digest.sha256
  | sha384 => Digest.sha384
  | sha512 => Digest.sha512

/-- The octets of a digest. -/
def size : DigestKind → Nat
  | sha1 => 20
  | sha256 => 32
  | sha384 => 48
  | sha512 => 64

/-- The identifier of a digest. -/
def id : DigestKind → ObjectId
  | sha1 => ObjectId.ofArcs [1, 3, 14, 3, 2, 26]
  | sha256 => ObjectId.digestSha256
  | sha384 => ObjectId.digestSha384
  | sha512 => ObjectId.digestSha512

end DigestKind

/-! ## 1. The fixed padding -/

/-- The digest of a message together with its name. -/
def digestInfo (kind : DigestKind) (message : Octets) : Octets :=
  sequence [sequence [primitive Tag.objectId kind.id, primitive Tag.null []],
    primitive Tag.octetString (kind.digest message)]

/-- **The padded digest** at a width of `k` octets; there have to be eight octets of ones. -/
def padDigest? (kind : DigestKind) (k : Nat) (message : Octets) : Option Octets :=
  let info := digestInfo kind message
  if info.length + 11 ≤ k then
    some (0 :: 1 :: List.replicate (k - info.length - 3) 0xff ++ 0 :: info)
  else none

namespace PublicKey

/-- The number that a signature of the right length spells, raised to the exponent. -/
def open? (k : PublicKey) (signature : Octets) : Option Nat :=
  let s := Octets.toNat signature
  if signature.length = k.width ∧ s < k.modulus then some (k.raise s) else none

/-- **Checks a signature with the fixed padding.** -/
def verify (k : PublicKey) (kind : DigestKind) (message signature : Octets) : Bool :=
  match k.open? signature, padDigest? kind k.width message with
  | some m, some padded => m = Octets.toNat padded
  | _, _ => false

/-! ## 2. The salted padding -/

/-- A mask of `n` octets from a seed: digests of the seed and a counter. -/
def mask (kind : DigestKind) (seed : Octets) (n : Nat) : Octets :=
  ((List.range (n / kind.size + 1)).flatMap fun i => kind.digest (seed ++ Octets.ofNat 4 i)).take n

/-- **Checks a signature with the salted padding**, with a salt as long as the digest. -/
def verifySalted (k : PublicKey) (kind : DigestKind) (message signature : Octets) : Bool :=
  match k.open? signature with
  | none => false
  | some m =>
    let bits := Octets.bitLength k.modulus - 1
    let size := (bits + 7) / 8
    let h := kind.size
    if 1 <<< bits ≤ m ∨ size < 2 * h + 2 then false
    else
      let padded := Octets.ofNat size m
      let hidden := padded.take (size - h - 1)
      let seed := (padded.drop (size - h - 1)).take h
      let unmasked := (hidden.zip (mask kind seed hidden.length)).map fun (a, b) => a ^^^ b
      let block : Octets := match unmasked with
        | [] => []
        | b :: bs => UInt8.ofNat (b.toNat % (1 <<< (8 - (8 * size - bits)))) :: bs
      let zeros := size - 2 * h - 2
      padded.getLast? = some 0xbc
        && block.take zeros = (List.replicate zeros 0 : Octets)
        && block[zeros]? = some 1
        && kind.digest (List.replicate 8 0 ++ kind.digest message ++ block.drop (zeros + 1)) = seed

end PublicKey

end RootAuthority.Rsa
