import Mathlib.FieldTheory.Finite.Basic
import RootAuthority.Certificate.Signature
import RootAuthority.Proofs.Der.Element
import RootAuthority.Proofs.Rsa.Fresh

/-!
# Signatures hold under the public half of their key

The two halves of a sound key (`SigningKey.IsSound`) compute a root modulo each prime, and their
combination is a root modulo the product: `SigningKey.raise_root`. So the check before a signature
is given out never fails (`SigningKey.sign?_isSome`). A key that is not sound may give out nothing,
but what a key does give out is accepted under its public half (`SigningKey.verify_of_sign?`).
-/

namespace RootAuthority.Rsa

open Der

/-! ## 1. Powers modulo a prime -/

/-- An exponent that is one modulo `p - 1` changes nothing modulo the prime `p`. -/
theorem pow_modEq_self {p a : Nat} (hp : p.Prime) (ha : a % (p - 1) = 1) (m : Nat) :
    m ^ a ≡ m [MOD p] := by
  obtain ⟨k, rfl⟩ : ∃ k, a = (p - 1) * k + 1 :=
    ⟨a / (p - 1), by have hdiv := Nat.div_add_mod a (p - 1); omega⟩
  rw [Nat.pow_succ, Nat.pow_mul]
  by_cases hd : p ∣ m
  · exact (Nat.modEq_zero_iff_dvd.mpr (Nat.dvd_mul_left_of_dvd hd _)).trans
      (Nat.modEq_zero_iff_dvd.mpr hd).symm
  · have hc : Nat.Coprime m p := ((Nat.Prime.coprime_iff_not_dvd hp).mpr hd).symm
    have hone := Nat.ModEq.pow_totient hc
    rw [Nat.totient_prime hp] at hone
    have hmul := (hone.pow k).mul_right m
    rwa [Nat.one_pow, Nat.one_mul] at hmul

/-! ## 2. The private operation -/

/-- **A key whose numbers belong together**: both halves undo the public exponent, each modulo its
    prime. -/
structure SigningKey.IsSound (k : SigningKey) : Prop where
  prime1 : k.key.prime1.Prime
  prime2 : k.key.prime2.Prime
  distinct : k.key.prime1 ≠ k.key.prime2
  modulus : k.key.prime1 * k.key.prime2 = k.key.modulus
  exponent1 : k.key.publicExponent * k.exponent1 % (k.key.prime1 - 1) = 1
  exponent2 : k.key.publicExponent * k.exponent2 % (k.key.prime2 - 1) = 1
  coefficient : k.coefficient * k.key.prime2 % k.key.prime1 = 1

namespace SigningKey

variable {k : SigningKey}

/-- **Two residues are combined** to a number that has both: this is the one for the first factor. -/
theorem combine_modEq {p q c : Nat} (hp : 1 < p) (hc : c * q % p = 1) (m1 m2 : Nat) :
    m2 + q * (c * (m1 + (p - m2 % p)) % p) ≡ m1 [MOD p] := by
  have hone : c * q ≡ 1 [MOD p] := by
    rw [Nat.ModEq, hc, Nat.mod_eq_of_lt hp]
  have hscaled : q * (c * (m1 + (p - m2 % p)) % p) ≡ m1 + (p - m2 % p) [MOD p] := by
    refine ((Nat.mod_modEq _ p).mul_left q).trans ?_
    rw [← Nat.mul_assoc, Nat.mul_comm q c]
    have hmul := hone.mul_right (m1 + (p - m2 % p))
    rwa [Nat.one_mul] at hmul
  have hlt := Nat.mod_lt m2 (show 0 < p by omega)
  calc m2 + q * (c * (m1 + (p - m2 % p)) % p)
      ≡ m2 % p + (m1 + (p - m2 % p)) [MOD p] := (Nat.mod_modEq m2 p).symm.add hscaled
    _ = m1 + p := by omega
    _ ≡ m1 [MOD p] := Nat.add_modEq_right

theorem root_modEq_first (h : k.IsSound) (m : Nat) :
    k.root m ≡ m ^ k.exponent1 [MOD k.key.prime1] := by
  unfold root
  dsimp only
  rw [Modular.pow_eq, Modular.pow_eq]
  refine (combine_modEq h.prime1.one_lt h.coefficient _ _).trans ?_
  exact (Nat.mod_modEq _ _).trans ((Nat.mod_modEq m _).pow _)

theorem root_modEq_second (m : Nat) : k.root m ≡ m ^ k.exponent2 [MOD k.key.prime2] := by
  unfold root
  dsimp only
  rw [Modular.pow_eq, Modular.pow_eq]
  generalize k.coefficient * _ % k.key.prime1 = x
  have hzero : k.key.prime2 * x ≡ 0 [MOD k.key.prime2] :=
    Nat.modEq_zero_iff_dvd.mpr (Nat.dvd_mul_right _ _)
  refine ((Nat.ModEq.refl _).add hzero).trans ?_
  exact (Nat.mod_modEq _ _).trans ((Nat.mod_modEq m _).pow _)

theorem root_lt (hp : 0 < k.key.prime1) (hq : 0 < k.key.prime2)
    (hn : k.key.prime1 * k.key.prime2 = k.key.modulus) (m : Nat) : k.root m < k.key.modulus := by
  unfold root
  dsimp only
  rw [Modular.pow_eq k.key.prime2, ← hn]
  generalize (m % k.key.prime2) ^ k.exponent2 = x
  generalize k.coefficient * _ = y
  have hx := Nat.mod_lt x hq
  have hy : y % k.key.prime1 + 1 ≤ k.key.prime1 := Nat.mod_lt y hp
  calc x % k.key.prime2 + k.key.prime2 * (y % k.key.prime1)
      < k.key.prime2 * (y % k.key.prime1 + 1) := by rw [Nat.mul_succ]; omega
    _ ≤ k.key.prime2 * k.key.prime1 := Nat.mul_le_mul_left _ hy
    _ = k.key.prime1 * k.key.prime2 := Nat.mul_comm _ _

/-- **Raising the root gives the number back.** -/
theorem raise_root (h : k.IsSound) {m : Nat} (hm : m < k.key.modulus) :
    k.key.publicKey.raise (k.root m) = m := by
  have hfirst : k.root m ^ k.key.publicExponent ≡ m [MOD k.key.prime1] := by
    refine ((root_modEq_first h m).pow _).trans ?_
    rw [← Nat.pow_mul, Nat.mul_comm]
    exact pow_modEq_self h.prime1 h.exponent1 m
  have hsecond : k.root m ^ k.key.publicExponent ≡ m [MOD k.key.prime2] := by
    refine ((root_modEq_second m).pow _).trans ?_
    rw [← Nat.pow_mul, Nat.mul_comm]
    exact pow_modEq_self h.prime2 h.exponent2 m
  have hcoprime := (Nat.coprime_primes h.prime1 h.prime2).mpr h.distinct
  have hboth := (Nat.modEq_and_modEq_iff_modEq_mul hcoprime).mp ⟨hfirst, hsecond⟩
  rw [h.modulus] at hboth
  unfold PublicKey.raise
  rw [Modular.pow_eq]
  exact Nat.mod_eq_of_modEq hboth hm

end SigningKey

/-! ## 3. The padding -/

theorem length_digestInfo (message : Octets) : (digestInfo .sha256 message).length = 51 := by
  have halgorithm : (Der.sequence [primitive Tag.objectId DigestKind.sha256.id,
      primitive Tag.null []]).length = 15 := by decide
  have hdigest : (DigestKind.sha256.digest message).length = 32 := Digest.length_sha256 message
  have hvalue : (primitive Tag.octetString (DigestKind.sha256.digest message)).length = 34 := by
    rw [primitive, Element.length_encode, hdigest]
    rfl
  have hcontent : [Der.sequence [primitive Tag.objectId DigestKind.sha256.id, primitive Tag.null []],
      primitive Tag.octetString (DigestKind.sha256.digest message)].flatten.length = 49 := by
    rw [List.flatten_cons, List.flatten_singleton, List.length_append, halgorithm, hvalue]
  rw [digestInfo, Der.sequence, composite, Element.length_encode, hcontent]
  rfl

/-- **The padded digest** has the width asked for and leads with a zero. -/
theorem padDigest?_eq_some {k : Nat} (hk : 62 ≤ k) (message : Octets) :
    ∃ padded, padDigest? .sha256 k message = some padded ∧ Octets.toNat padded < 256 ^ (k - 1) := by
  have hinfo := length_digestInfo message
  unfold padDigest?
  dsimp only
  rw [if_pos (by omega)]
  refine ⟨_, rfl, ?_⟩
  have hlt := Octets.toNat_lt
    (1 :: List.replicate (k - (digestInfo .sha256 message).length - 3) 0xff
      ++ 0 :: digestInfo .sha256 message)
  have hlen : (1 :: List.replicate (k - (digestInfo .sha256 message).length - 3) (0xff : UInt8)
      ++ 0 :: digestInfo .sha256 message).length = k - 1 := by
    simp only [List.length_append, List.length_cons, List.length_replicate, hinfo]
    omega
  rw [hlen] at hlt
  rw [List.cons_append, Octets.toNat_cons, show (0 : UInt8).toNat = 0 from rfl, Nat.zero_mul,
    Nat.zero_add]
  exact hlt

/-! ## 4. Signatures -/

namespace SigningKey

variable {k : SigningKey}

/-- **A sound key signs every message**; the signature has the width of the modulus. -/
theorem sign?_isSome (h : k.IsSound) (hw : 62 ≤ Octets.width k.key.modulus) (message : Octets) :
    ∃ signature, k.sign? message = some signature ∧
      signature.length = Octets.width k.key.modulus := by
  obtain ⟨padded, hpad, hlt⟩ := padDigest?_eq_some hw message
  have hpos : 0 < k.key.modulus := by
    rw [← h.modulus]
    exact Nat.mul_pos h.prime1.pos h.prime2.pos
  have hm := Nat.lt_of_lt_of_le hlt (Octets.pow_width_le hpos)
  refine ⟨Octets.ofNat (Octets.width k.key.modulus) (k.root (Octets.toNat padded)), ?_,
    Octets.length_ofNat _ _⟩
  simp only [sign?, hpad, Option.bind_eq_bind, Option.bind_some, raise_root h hm, if_true,
    Option.pure_def]

/-- **What a key signs is accepted under its public half**, whether or not the halves of the key
    belong together: a signature that does not hold is not given out. -/
theorem verify_of_sign? (hp : 0 < k.key.prime1) (hq : 0 < k.key.prime2)
    (hn : k.key.prime1 * k.key.prime2 = k.key.modulus) {message signature : Octets}
    (hs : k.sign? message = some signature) :
    k.key.publicKey.verify .sha256 message signature = true := by
  obtain ⟨padded, hpad, hs⟩ := Option.bind_eq_some_iff.mp hs
  dsimp only at hs
  split at hs
  · next hraise =>
    obtain rfl := Option.some.inj hs
    have hlt := root_lt hp hq hn (Octets.toNat padded)
    have hroot : Octets.toNat (Octets.ofNat (Octets.width k.key.modulus)
        (k.root (Octets.toNat padded))) = k.root (Octets.toNat padded) := by
      rw [Octets.toNat_ofNat, Nat.mod_eq_of_lt (Nat.lt_trans hlt (Octets.lt_pow_width _))]
    have hopen : k.key.publicKey.open? (Octets.ofNat (Octets.width k.key.modulus)
        (k.root (Octets.toNat padded))) = some (Octets.toNat padded) := by
      unfold PublicKey.open?
      dsimp only
      rw [hroot, if_pos ⟨Octets.length_ofNat _ _, hlt⟩, hraise]
    unfold PublicKey.verify
    rw [hopen, show k.key.publicKey.width = Octets.width k.key.modulus from rfl, hpad]
    exact decide_eq_true rfl
  · cases hs

/-- **A key made from fresh primes is sound.** -/
theorem isSound_ofPrimes {pair : PrimePair} (h : pair.IsFresh) :
    (ofKey (PrivateKey.ofPrimes pair)).IsSound where
  prime1 := h.first.prime
  prime2 := h.second.prime
  distinct := h.distinct
  modulus := rfl
  exponent1 := by
    have he := PrivateKey.exponents_mod_first h
    rwa [Nat.mul_mod, ← Nat.mod_mod (PrivateKey.ofPrimes pair).privateExponent, ← Nat.mul_mod] at he
  exponent2 := by
    have he := PrivateKey.exponents_mod_second h
    rwa [Nat.mul_mod, ← Nat.mod_mod (PrivateKey.ofPrimes pair).privateExponent, ← Nat.mul_mod] at he
  coefficient := coefficient_mod h

end SigningKey

end RootAuthority.Rsa
