import RootAuthority.Crash
import RootAuthority.DecodeError
import RootAuthority.Der.Strict
import RootAuthority.Rsa.PublicKey

/-!
# RSA private keys and the container they are stored in

A private key is kept as modulus, public and private exponent and the two primes. It is valid if the
primes multiply to the modulus and the exponents undo each other modulo each prime less one; that
the primes are prime is not checked, and neither are the three numbers that a container holds
besides. A remainder modulo a prime less one is a crash for the primes 0 and 1
(`PrivateKey.undoesAt_crashes_iff`), so the primes are compared with 1 first.

`PrivateKey.encodeContainer` writes a key and `PrivateKey.decode` reads one; as no container makes it
crash (`PrivateKey.decode_completes`), it has a result for all of them, `PrivateKey.ofContainer`. A
container may carry a public key or further fields after the private key; it must end where its outer
sequence ends.
-/

namespace RootAuthority.Rsa

open Der

/-- An RSA private key. -/
structure PrivateKey where
  modulus : Nat
  publicExponent : Nat
  privateExponent : Nat
  prime1 : Nat
  prime2 : Nat
deriving DecidableEq, Repr

/-- Two primes from which a key is made. -/
structure PrimePair where
  p : Nat
  q : Nat
deriving DecidableEq, Repr

namespace PrivateKey

/-! ## 1. Making keys -/

/-- The public exponent of fresh keys. -/
def freshExponent : Nat := 65537

/-- **The key made from two primes.** -/
def ofPrimes (pair : PrimePair) : PrivateKey where
  modulus := pair.p * pair.q
  publicExponent := freshExponent
  privateExponent := Modular.inverse freshExponent ((pair.p - 1) * (pair.q - 1))
  prime1 := pair.p
  prime2 := pair.q

/-- The public half of a key. -/
def publicKey (k : PrivateKey) : PublicKey := ⟨k.modulus, k.publicExponent⟩

/-- The size of the modulus in bits, rounded up to whole octets. -/
def bits (k : PrivateKey) : Nat := Octets.width k.modulus * 8

/-! ## 2. Validity -/

/-- The greatest modulus, in bits. -/
def maxBits : Nat := 4096

/-- The public half is within the bounds for keys. -/
def isBounded (k : PrivateKey) : Bool :=
  Octets.bitLength k.modulus ≤ maxBits && k.publicExponent < k.modulus && k.modulus % 2 = 1
    && k.publicExponent % 2 = 1 && 2 ≤ k.publicExponent && k.publicExponent < 0x2_0000_0000

/-- A number less one. -/
def lessOne : Nat → Except Crash Nat
  | 0 => .error .belowZero
  | n + 1 => .ok n

/-- The remainder of a division. -/
def remainder (a : Nat) : Nat → Except Crash Nat
  | 0 => .error .divisionByZero
  | n + 1 => .ok (a % (n + 1))

/-- A number modulo a prime less one. -/
def modLessOne (a prime : Nat) : Except Crash Nat := do remainder a (← lessOne prime)

/-- The exponents undo each other modulo a prime less one. -/
def undoesAt (k : PrivateKey) (prime : Nat) : Except Crash Bool := do
  return (← modLessOne (k.publicExponent * k.privateExponent) prime) = 1

/-- **Checks that the parts belong together.** -/
def validate (k : PrivateKey) : Except Crash Bool := do
  if ¬k.isBounded then return false
  -- this has to come before the remainders, which there are for primes above 1 only
  else if ¬(1 < k.prime1 ∧ 1 < k.prime2 ∧ k.prime1 * k.prime2 = k.modulus) then return false
  else if ← k.undoesAt k.prime1 then k.undoesAt k.prime2
  else return false

/-- The two exponents that speed up signing. -/
def signingExponents (k : PrivateKey) : Except Crash (Nat × Nat) := do
  return (← modLessOne k.privateExponent k.prime1, ← modLessOne k.privateExponent k.prime2)

/-- Takes a key if its parts belong together. -/
def accept (k : PrivateKey) : Except Crash (Except DecodeError PrivateKey) := do
  if ← k.validate then
    -- nothing that is said about the key later depends on these two
    let _ ← k.signingExponents
    return .ok k
  else return .error .rsa

theorem modLessOne_eq {prime : Nat} (h : 1 < prime) (a : Nat) :
    modLessOne a prime = .ok (a % (prime - 1)) := by
  match prime, h with
  | prime + 2, _ => rfl

theorem undoesAt_eq {k : PrivateKey} {prime : Nat} (h : 1 < prime) : k.undoesAt prime
    = .ok (decide (k.publicExponent * k.privateExponent % (prime - 1) = 1)) := by
  rw [undoesAt, modLessOne_eq h]
  rfl

/-- **Modulo a prime less one there is a crash for the primes 0 and 1**, and for no others. -/
theorem undoesAt_crashes_iff {k : PrivateKey} {prime : Nat} :
    (∃ crash, k.undoesAt prime = .error crash) ↔ prime ≤ 1 := by
  match prime with
  | 0 => exact ⟨fun _ => Nat.zero_le 1, fun _ => ⟨.belowZero, rfl⟩⟩
  | 1 => exact ⟨fun _ => Nat.le_refl 1, fun _ => ⟨.divisionByZero, rfl⟩⟩
  | prime + 2 => exact ⟨fun ⟨_, h⟩ => (nomatch h), fun h => absurd h (by omega)⟩

/-- **A check comes to an end**, whatever the parts are. -/
theorem validate_completes (k : PrivateKey) : ∃ valid, k.validate = .ok valid := by
  unfold validate
  split
  · exact ⟨false, rfl⟩
  · split
    · exact ⟨false, rfl⟩
    · next h =>
      obtain ⟨h1, h2, -⟩ := Decidable.not_not.mp h
      rw [undoesAt_eq h1, undoesAt_eq h2]
      exact ⟨_, (apply_ite _ _ _ _).symm⟩

/-- What passed the check has primes above 1. -/
theorem one_lt_of_validate {k : PrivateKey} (h : k.validate = .ok true) :
    1 < k.prime1 ∧ 1 < k.prime2 := by
  unfold validate at h
  split at h
  · cases h
  · split at h
    · cases h
    · next hguard => exact ⟨(Decidable.not_not.mp hguard).1, (Decidable.not_not.mp hguard).2.1⟩

/-- A key is taken exactly if the check says so. -/
theorem accept_eq {k : PrivateKey} {valid : Bool} (h : k.validate = .ok valid) :
    k.accept = .ok (if valid then .ok k else .error .rsa) := by
  unfold accept
  rw [h]
  cases valid with
  | false => rfl
  | true =>
    obtain ⟨h1, h2⟩ := one_lt_of_validate h
    have hexponents : k.signingExponents
        = .ok (k.privateExponent % (k.prime1 - 1), k.privateExponent % (k.prime2 - 1)) := by
      rw [signingExponents, modLessOne_eq h1, modLessOne_eq h2]
      rfl
    exact congrArg (· >>= fun _ => pure (Except.ok k)) hexponents

/-! ## 3. Writing -/

/-- The octets of a key: its five numbers and the three that speed up signing. -/
def encode (k : PrivateKey) : Octets :=
  sequence ([0, k.modulus, k.publicExponent, k.privateExponent, k.prime1, k.prime2,
    k.privateExponent % (k.prime1 - 1), k.privateExponent % (k.prime2 - 1),
    Modular.inverse k.prime2 k.prime1].map integer)

/-- **The container of a key.** -/
def encodeContainer (k : PrivateKey) : Octets :=
  sequence [integer 0, PublicKey.algorithm, primitive Tag.octetString k.encode]

/-! ## 4. Reading -/

/-- The key spelled by the octets inside a container, valid or not. -/
def ofDer? (bs : Octets) : Option PrivateKey := do
  let content ← Strict.only 0x30 bs
  match ← Octets.readMany Strict.readUnsigned 9 content with
  | ([0, n, e, d, p, q, _, _, _], []) => return ⟨n, e, d, p, q⟩
  | _ => none

end PrivateKey

/-- What a container for a private key holds: the algorithm, its parameters and the key. -/
structure Container where
  algorithm : ObjectId
  /-- The tag and contents of the parameters. -/
  parameters? : Option (UInt8 × Octets)
  key : Octets
deriving DecidableEq, Repr

namespace Container

/-- Reads the algorithm; nothing may follow its parameters. -/
def readAlgorithm (bs : Octets) : Option ((ObjectId × Option (UInt8 × Octets)) × Octets) := do
  let (content, rest) ← Strict.readTagged 0x30 bs
  let (id, inner) ← Strict.readTagged 0x06 content
  let _ ← ObjectId.dotted? id
  if inner.isEmpty then return ((id, none), rest)
  else
    let (parameters, inner) ← Strict.readElement inner
    if inner.isEmpty then return ((id, some parameters), rest) else none

/-- The tag octet belongs to a field that the container numbers. -/
def isNumbered (tag : UInt8) : Bool := 0x80 ≤ tag && tag < 0xc0

/-- Skips fields numbered zero and then the public key, numbered one, and tells whether it was
    there; `fuel` is at least the number of octets. -/
def skipPublicKey : (fuel : Nat) → Octets → Option (Bool × Octets)
  | _, [] => some (false, [])
  | 0, _ => none
  | fuel + 1, t :: bs =>
    if !Strict.isTag t then none
    else if !isNumbered t ∨ 1 < t.toNat % 32 then some (false, t :: bs)
    else do
      let ((tag, content), rest) ← Strict.readElement (t :: bs)
      if tag.toNat % 32 = 0 then skipPublicKey fuel rest
      else match tag, content with
        | 0x81, 0 :: _ => return (true, rest)
        | _, _ => none

/-- Nothing is left but numbered fields that hold one element each; `fuel` is at least the number of
    octets. -/
def onlyFields : (fuel : Nat) → Octets → Bool
  | _, [] => true
  | 0, _ => false
  | fuel + 1, bs => match Strict.readElement bs with
    | some ((tag, content), rest) =>
      isNumbered tag && tag.toNat / 32 % 2 = 1
        && (match Strict.readElement content with
          | some (_, []) => true
          | _ => false)
        && onlyFields fuel rest
    | none => false

/-- **The container that the octets of a file hold.** The second version has a public key, the first
    has none. -/
def ofDer? (bs : Octets) : Option Container := do
  let content ← Strict.only 0x30 bs
  let (version, rest) ← Strict.readTagged 0x02 content
  let ((algorithm, parameters?), rest) ← readAlgorithm rest
  let (key, rest) ← Strict.readTagged 0x04 rest
  let (hasPublicKey, rest) ← skipPublicKey rest.length rest
  if version = (if hasPublicKey then [1] else [0]) ∧ onlyFields rest.length rest then
    return ⟨algorithm, parameters?, key⟩
  else none

end Container

namespace PrivateKey

/-- **Reads the RSA key in the container that a file holds**, and checks it. -/
def decode (bs : Octets) : Except Crash (Except DecodeError PrivateKey) :=
  match Container.ofDer? bs with
  | none => .ok (.error .container)
  | some c =>
    if c.algorithm ≠ ObjectId.rsaEncryption then
      .ok (.error (.notRsa ((ObjectId.dotted? c.algorithm).getD "")))
    else if c.parameters? ≠ some (0x05, []) then .ok (.error .rsa)
    else match ofDer? c.key with
      | some k => k.accept
      | none => .ok (.error .rsa)

/-- **No octets make reading a key crash.** -/
theorem decode_completes (bs : Octets) : ∃ result, decode bs = .ok result := by
  unfold decode
  split
  · exact ⟨_, rfl⟩
  · split
    · exact ⟨_, rfl⟩
    · split
      · exact ⟨_, rfl⟩
      · split
        · next k _ =>
          obtain ⟨valid, hvalid⟩ := k.validate_completes
          exact ⟨_, accept_eq hvalid⟩
        · exact ⟨_, rfl⟩

/-- **The valid RSA key in the container that a file holds.** -/
def ofContainer (bs : Octets) : Except DecodeError PrivateKey :=
  withoutCrash (decode bs) (decode_completes bs)

end PrivateKey

end RootAuthority.Rsa
