import RootAuthority.Certificate.Reader
import RootAuthority.Curve.Edwards
import RootAuthority.Curve.Weierstrass
import RootAuthority.Rsa.Padding

/-!
# Checking the signature of a certificate

The algorithm of the signature decides how it is checked; the algorithm named beside the public key
plays a part only for elliptic curves, where its parameters name the curve. A certificate is
self-signed (`Certificate.isSelfSigned`) if issuer and subject read the same and its signature holds
under its own public key.
-/

namespace RootAuthority

open Der

/-- A way to check signatures. -/
inductive SignatureScheme
  /-- RSA with the fixed padding; moduli have at least `minBits` bits. -/
  | rsa (digest : Rsa.DigestKind) (minBits : Nat)
  /-- RSA with the salted padding. -/
  | rsaSalted (digest : Rsa.DigestKind)
  | ecdsa (curve : Curve.Weierstrass) (digest : Rsa.DigestKind)
  | edwards

namespace SignatureScheme

/-- The element that a tag of the surrounding sequence announces, and what follows it. -/
def skipOptional (number : Nat) (inside : Octets → Bool) (bs : Octets) : Option Octets :=
  if bs.isEmpty then some []
  else do
    let (e, rest) ← readElement bs
    if e.tag.number ≠ number then return bs
    else if e.tag = Tag.context true number ∧ inside e.content then return rest
    else none

/-- The digest that the parameters of the salted padding name; the other parameters only have to be
    readable. -/
def saltedDigest? (parameters : Element) : Option ObjectId := do
  if parameters.tag.number ≠ Tag.sequence then none
  else
    let bs := parameters.content
    let digest := (readElement bs).bind fun (e, _) =>
      if e.tag = Tag.context true 0 then
        (Certificate.readAlgorithm e.content).map (·.1.id)
      else none
    let bs ← skipOptional 0 (fun c => (Certificate.readAlgorithm c).isSome) bs
    let bs ← skipOptional 1 (fun c => (Certificate.readAlgorithm c).isSome) bs
    let isWord := fun c => ((readElement c).map fun (e, _) => Extension.isWord e).getD false
    let bs ← skipOptional 2 isWord bs
    let _ ← skipOptional 3 isWord bs
    digest

/-- The curve that the parameters of a public key name. -/
def curve? (algorithm : Algorithm) : Option Curve.Weierstrass :=
  match algorithm.parameters? with
  | some e =>
    if e.content = ObjectId.curveP256 then some .p256
    else if e.content = ObjectId.curveP384 then some .p384
    else none
  | none => none

/-- **The scheme for a signature algorithm** and the algorithm of the public key. -/
def of? (signature key : Algorithm) : Option SignatureScheme :=
  if signature.id = ObjectId.sha1WithRsa ∨ signature.id = ObjectId.sha1WithRsaOld then
    some (.rsa .sha1 1024)
  else if signature.id = ObjectId.sha256WithRsa then some (.rsa .sha256 2048)
  else if signature.id = ObjectId.sha384WithRsa then some (.rsa .sha384 2048)
  else if signature.id = ObjectId.sha512WithRsa then some (.rsa .sha512 2048)
  else if signature.id = ObjectId.rsaPss then
    match signature.parameters?.bind saltedDigest? with
    | none => none
    | some digest =>
      if digest = ObjectId.digestSha256 then some (.rsaSalted .sha256)
      else if digest = ObjectId.digestSha384 then some (.rsaSalted .sha384)
      else if digest = ObjectId.digestSha512 then some (.rsaSalted .sha512)
      else none
  else if signature.id = ObjectId.ecdsaWithSha256 then (curve? key).map (.ecdsa · .sha256)
  else if signature.id = ObjectId.ecdsaWithSha384 then (curve? key).map (.ecdsa · .sha384)
  else if signature.id = ObjectId.ed25519 then some .edwards
  else none

/-- The greatest modulus that signatures are checked with, in bits. -/
def maxBits : Nat := 8192

/-- **Checks a signature** by a scheme. -/
def verify (scheme : SignatureScheme) (key message signature : Octets) : Bool :=
  match scheme with
  | .rsa digest minBits => match Rsa.PublicKey.ofDer? key with
    | some k => k.isUsable minBits maxBits 3 && k.verify digest message signature
    | none => false
  | .rsaSalted digest => match Rsa.PublicKey.ofDer? key with
    | some k => k.isUsable 2048 maxBits 3 && k.verifySalted digest message signature
    | none => false
  | .ecdsa curve digest => curve.verify key (digest.digest message) signature
  | .edwards => Curve.Edwards.verify key message signature

end SignatureScheme

namespace Certificate

/-- The signature holds under a public key. -/
def signedBy (c : Certificate) (key : SubjectPublicKey) : Bool :=
  match SignatureScheme.of? c.signatureAlgorithm key.algorithm with
  | some scheme => scheme.verify key.key c.signed c.signature
  | none => false

/-- **Issuer and subject read the same, and the signature holds under the certificate's own key.** -/
def isSelfSigned (c : Certificate) : Bool :=
  c.subject.text = c.issuer.text && c.signedBy c.publicKey

end Certificate

end RootAuthority
