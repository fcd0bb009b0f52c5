import Mathlib.Data.Nat.Prime.Basic
import Mathlib.Tactic.Ring
import RootAuthority.Proofs.Modular
import RootAuthority.Proofs.Octets
import RootAuthority.Proofs.Rsa.Validity
import RootAuthority.Rsa.SigningKey

/-!
# Keys made from fresh primes

Primes are fresh (`PrimePair.IsFresh`) if each has 1024 bits with the two highest set, they differ
and the public exponent has an inverse. The key made from them

* has a modulus of 2048 bits (`PrivateKey.bitLength_ofPrimes`),
* is valid (`PrivateKey.isValid_ofPrimes`), and
* can be signed with (`SigningKey.isUsable_ofPrimes`).
-/

namespace RootAuthority.Rsa

/-! ## 1. Fresh primes -/

/-- A prime as fresh keys are made of: of its 1024 bits the two highest are set. -/
structure IsFreshPrime (p : Nat) : Prop where
  prime : p.Prime
  bits : Octets.bitLength p = 1024
  top : 3 * 2 ^ 1022 ≤ p

/-- **Primes that a fresh key can be made of.** -/
structure PrimePair.IsFresh (pair : PrimePair) : Prop where
  first : IsFreshPrime pair.p
  second : IsFreshPrime pair.q
  distinct : pair.p ≠ pair.q
  /-- The public exponent has an inverse. -/
  coprime : Nat.Coprime PrivateKey.freshExponent ((pair.p - 1) * (pair.q - 1))

/-- A number with its two highest bits set squares to twice its size. -/
theorem bitLength_mul {k p q : Nat} (hp : 3 * 2 ^ k ≤ p) (hp' : Octets.bitLength p = k + 2)
    (hq : 3 * 2 ^ k ≤ q) (hq' : Octets.bitLength q = k + 2) :
    Octets.bitLength (p * q) = k + k + 4 := by
  have hlo := Nat.mul_le_mul hp hq
  have hhi := Nat.mul_lt_mul'' (Octets.lt_pow_of_bitLength_le (Nat.le_of_eq hp'))
    (Octets.lt_pow_of_bitLength_le (Nat.le_of_eq hq'))
  refine Octets.bitLength_eq (k := k + k + 3) ?_ ?_
  · rw [Nat.pow_add, Nat.pow_add]
    have hnine : 3 * 2 ^ k * (3 * 2 ^ k) = 9 * (2 ^ k * 2 ^ k) := by ring
    omega
  · have hpow : 2 ^ (k + k + 3 + 1) = 2 ^ (k + 2) * 2 ^ (k + 2) := by ring
    omega

/-- A number with its two highest bits set exceeds every number of the bits below them. -/
theorem lt_of_top {k n p : Nat} (hp : 3 * 2 ^ k ≤ p) (hn : Octets.bitLength n ≤ k) : n < p := by
  have hlt := Octets.lt_pow_of_bitLength_le hn
  omega

theorem pow_le_of_top {k p : Nat} (hp : 3 * 2 ^ k ≤ p) : 2 ^ k ≤ p - 1 := by
  have hpos := Nat.two_pow_pos k
  omega

/-- A factor of a long product is long if the other one is short. -/
theorem bits_of_mul {k j e d : Nat} (he : e < 2 ^ 17) (hd : Octets.bitLength d ≤ j)
    (h : 2 ^ k * 2 ^ k ≤ e * d) : k + k < 17 + j := by
  have hlt := Nat.mul_lt_mul'' he (Octets.lt_pow_of_bitLength_le hd)
  rw [← Nat.pow_add] at h hlt
  exact (Nat.pow_lt_pow_iff_right (by decide)).mp (Nat.lt_of_le_of_lt h hlt)

namespace IsFreshPrime

variable {p : Nat}

theorem pos (h : IsFreshPrime p) : 0 < p := h.prime.pos

theorem two_lt (h : IsFreshPrime p) : 2 < p := lt_of_top h.top (by decide)

theorem odd (h : IsFreshPrime p) : p % 2 = 1 := by
  have := h.two_lt
  rcases h.prime.eq_two_or_odd with h2 | h2
  · omega
  · exact h2

end IsFreshPrime

namespace PrivateKey

variable {pair : PrimePair}

/-! ## 2. The numbers of a fresh key -/

/-- **The modulus of a fresh key** has 2048 bits. -/
theorem bitLength_ofPrimes (h : pair.IsFresh) :
    Octets.bitLength (ofPrimes pair).modulus = 2048 :=
  bitLength_mul (k := 1022) h.first.top h.first.bits h.second.top h.second.bits

theorem width_ofPrimes (h : pair.IsFresh) : Octets.width (ofPrimes pair).modulus = 256 := by
  rw [Octets.width_eq_bitLength, bitLength_ofPrimes h]

/-- The number of residues without a common factor with the modulus. -/
def totient (pair : PrimePair) : Nat := (pair.p - 1) * (pair.q - 1)

theorem one_lt_totient (h : pair.IsFresh) : 1 < totient pair := by
  have hp := h.first.two_lt
  have hq := h.second.two_lt
  exact Nat.lt_of_lt_of_le (by decide : 1 < 2 * 2)
    (Nat.mul_le_mul (show 2 ≤ pair.p - 1 by omega) (show 2 ≤ pair.q - 1 by omega))

/-- **The exponents of a fresh key undo each other.** -/
theorem exponents_mod_totient (h : pair.IsFresh) :
    (ofPrimes pair).publicExponent * (ofPrimes pair).privateExponent % totient pair = 1 := by
  rw [Nat.mul_comm]
  exact Modular.inverse_mul_mod (one_lt_totient h) h.coprime

theorem exponents_mod_first (h : pair.IsFresh) :
    (ofPrimes pair).publicExponent * (ofPrimes pair).privateExponent % (pair.p - 1) = 1 := by
  have htwo := h.first.two_lt
  have hdvd : pair.p - 1 ∣ totient pair := Nat.dvd_mul_right _ _
  rw [← Nat.mod_mod_of_dvd _ hdvd, exponents_mod_totient h, Nat.mod_eq_of_lt (by omega)]

theorem exponents_mod_second (h : pair.IsFresh) :
    (ofPrimes pair).publicExponent * (ofPrimes pair).privateExponent % (pair.q - 1) = 1 := by
  have htwo := h.second.two_lt
  have hdvd : pair.q - 1 ∣ totient pair := Nat.dvd_mul_left _ _
  rw [← Nat.mod_mod_of_dvd _ hdvd, exponents_mod_totient h, Nat.mod_eq_of_lt (by omega)]

theorem privateExponent_lt_totient (h : pair.IsFresh) :
    (ofPrimes pair).privateExponent < totient pair :=
  Modular.inverse_lt (Nat.lt_of_succ_lt (one_lt_totient h)) _

theorem totient_lt_modulus (h : pair.IsFresh) : totient pair < (ofPrimes pair).modulus :=
  Nat.mul_lt_mul'' (Nat.sub_lt h.first.pos Nat.one_pos) (Nat.sub_lt h.second.pos Nat.one_pos)

theorem first_le_modulus (h : pair.IsFresh) : pair.p ≤ (ofPrimes pair).modulus :=
  Nat.le_mul_of_pos_right _ h.second.pos

theorem second_le_modulus (h : pair.IsFresh) : pair.q ≤ (ofPrimes pair).modulus :=
  Nat.le_mul_of_pos_left _ h.first.pos

theorem freshExponent_lt_modulus (h : pair.IsFresh) : freshExponent < (ofPrimes pair).modulus :=
  Nat.lt_of_lt_of_le (lt_of_top h.first.top (by decide)) (first_le_modulus h)

theorem privateExponent_lt_modulus (h : pair.IsFresh) :
    (ofPrimes pair).privateExponent < (ofPrimes pair).modulus :=
  Nat.lt_trans (privateExponent_lt_totient h) (totient_lt_modulus h)

theorem modulus_odd (h : pair.IsFresh) : (ofPrimes pair).modulus % 2 = 1 := by
  show pair.p * pair.q % 2 = 1
  rw [Nat.mul_mod, h.first.odd, h.second.odd]

/-- A factor of a product that is odd modulo an even number is odd. -/
theorem odd_of_mul_mod {a b m : Nat} (hm : m % 2 = 0) (h : a * b % m = 1) : b % 2 = 1 := by
  have hodd : a * b % 2 = 1 := by
    rw [← Nat.mod_mod_of_dvd _ (Nat.dvd_of_mod_eq_zero hm), h]
  rcases Nat.mod_two_eq_zero_or_one b with hb | hb
  · rw [Nat.mul_mod, hb] at hodd
    simp at hodd
  · exact hb

theorem privateExponent_odd (h : pair.IsFresh) : (ofPrimes pair).privateExponent % 2 = 1 := by
  have hp := h.first.odd
  exact odd_of_mul_mod (m := pair.p - 1) (by omega) (exponents_mod_first h)

/-- The exponents multiply to more than one, so to at least the totient. -/
theorem totient_le_exponents (h : pair.IsFresh) :
    totient pair ≤ (ofPrimes pair).publicExponent * (ofPrimes pair).privateExponent := by
  have hmod := exponents_mod_totient h
  refine Nat.le_of_not_lt fun hlt => ?_
  rw [Nat.mod_eq_of_lt hlt] at hmod
  have hone : (ofPrimes pair).publicExponent = 1 := Nat.eq_one_of_mul_eq_one_right hmod
  cases hone

/-- **The private exponent of a fresh key is long**: it has more than half the bits of the
    modulus. -/
theorem lt_bitLength_privateExponent (h : pair.IsFresh) :
    1024 < Octets.bitLength (ofPrimes pair).privateExponent := by
  refine Nat.lt_of_not_le fun hle => ?_
  have hlo := Nat.mul_le_mul (pow_le_of_top h.first.top) (pow_le_of_top h.second.top)
  have hlt := bits_of_mul (by decide : freshExponent < 2 ^ 17) hle
    (Nat.le_trans hlo (totient_le_exponents h))
  exact absurd hlt (by decide)

/-! ## 3. Validity -/

/-- **A fresh key is valid.** -/
theorem isValid_ofPrimes (h : pair.IsFresh) : (ofPrimes pair).IsValid where
  bits := Nat.le_trans (Nat.le_of_eq (bitLength_ofPrimes h)) (by decide)
  exponent_lt_modulus := freshExponent_lt_modulus h
  modulus_odd := modulus_odd h
  exponent_odd := (by decide : freshExponent % 2 = 1)
  two_le_exponent := (by decide : 2 ≤ freshExponent)
  exponent_lt := (by decide : freshExponent < 2 ^ 33)
  one_lt_prime1 := Nat.lt_of_succ_lt h.first.two_lt
  one_lt_prime2 := Nat.lt_of_succ_lt h.second.two_lt
  modulus_eq := rfl
  undoes1 := exponents_mod_first h
  undoes2 := exponents_mod_second h

end PrivateKey

/-! ## 4. Signing -/

namespace SigningKey

variable {pair : PrimePair}

/-- The key to sign with that the container of a key holds. -/
def ofKey (k : PrivateKey) : SigningKey where
  key := k
  exponent1 := k.privateExponent % (k.prime1 - 1)
  exponent2 := k.privateExponent % (k.prime2 - 1)
  coefficient := Modular.inverse k.prime2 k.prime1

theorem isPrimeSized_of_fresh {k : SigningKey} {p : Nat} (hp : IsFreshPrime p)
    (hk : k.halfBits = 1024) : k.isPrimeSized p = true := by
  simp only [isPrimeSized, Bool.and_eq_true, decide_eq_true_eq]
  refine ⟨⟨⟨hp.odd, hp.two_lt⟩, ?_⟩, ?_⟩
  · rw [hp.bits, hk]
  · rw [hk]

/-- The private exponent modulo a prime less one is odd and below the prime. -/
theorem exponent_mod_odd {d p : Nat} (hp : IsFreshPrime p) (hd : d % 2 = 1) :
    d % (p - 1) % 2 = 1 ∧ d % (p - 1) < p := by
  have hodd := hp.odd
  have htwo := hp.two_lt
  have hdvd : 2 ∣ p - 1 := Nat.dvd_of_mod_eq_zero (by omega)
  refine ⟨?_, ?_⟩
  · rw [Nat.mod_mod_of_dvd _ hdvd, hd]
  · have hlt := Nat.mod_lt d (show 0 < p - 1 by omega)
    omega

theorem coefficient_mod (h : pair.IsFresh) :
    Modular.inverse pair.q pair.p * pair.q % pair.p = 1 :=
  Modular.inverse_mul_mod h.first.prime.one_lt
    ((Nat.coprime_primes h.second.prime h.first.prime).mpr h.distinct.symm)

/-- The public half of a fresh key is of the size that signing asks for. -/
theorem isUsable_publicKey_ofPrimes (h : pair.IsFresh) :
    (PrivateKey.ofPrimes pair).publicKey.isUsable 2048 4096 65537 = true := by
  have hbits := PrivateKey.bitLength_ofPrimes h
  have hwidth : (PrivateKey.ofPrimes pair).publicKey.width = 256 := PrivateKey.width_ofPrimes h
  simp only [PublicKey.isUsable, Bool.and_eq_true, decide_eq_true_eq]
  refine ⟨⟨⟨⟨⟨PrivateKey.modulus_odd h, ?_⟩, ?_⟩, ?_⟩, ?_⟩, ?_⟩
  · rw [hwidth]
  · exact Nat.le_trans (Nat.le_of_eq hbits) (by decide)
  · exact (by decide : PrivateKey.freshExponent % 2 = 1)
  · exact (by decide : 65537 ≤ PrivateKey.freshExponent)
  · exact (by decide : Octets.bitLength PrivateKey.freshExponent ≤ 33)

/-- **A fresh key can be signed with.** -/
theorem isUsable_ofPrimes (h : pair.IsFresh) :
    (ofKey (PrivateKey.ofPrimes pair)).isUsable = true := by
  have hbits := PrivateKey.bitLength_ofPrimes h
  have hhalf : (ofKey (PrivateKey.ofPrimes pair)).halfBits = 1024 := by
    show (Octets.bitLength (PrivateKey.ofPrimes pair).modulus + 1) / 2 = 1024
    rw [hbits]
  have hpublic := isUsable_publicKey_ofPrimes h
  have hodd := PrivateKey.privateExponent_odd h
  have h1 := exponent_mod_odd h.first hodd
  have h2 := exponent_mod_odd h.second hodd
  simp only [isUsable, Bool.and_eq_true, decide_eq_true_eq]
  exact ⟨⟨⟨⟨⟨⟨⟨⟨⟨⟨⟨⟨hpublic, isPrimeSized_of_fresh h.first hhalf⟩,
    isPrimeSized_of_fresh h.second hhalf⟩, rfl⟩, hodd⟩,
    PrivateKey.privateExponent_lt_modulus h⟩,
    hhalf ▸ PrivateKey.lt_bitLength_privateExponent h⟩, h1.1⟩, h1.2⟩, h2.1⟩, h2.2⟩,
    Modular.inverse_lt h.first.pos _⟩, coefficient_mod h⟩

end SigningKey

end RootAuthority.Rsa
