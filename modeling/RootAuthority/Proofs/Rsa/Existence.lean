import Mathlib.NumberTheory.LucasPrimality
import RootAuthority.Proofs.Rsa.Fresh

/-!
# Fresh primes exist

Lucas's test proves a number prime by the powers of one base, given the prime factors of its
predecessor. `prime_of_smooth` is that test for predecessors with the factors 2, 3 and 5 only, with
the powers computed as signing computes them. Two numbers of 1024 bits that pass it make
`PrimePair.smooth`, a fresh pair (`PrimePair.isFresh_smooth`), and two others `PrimePair.smoother`.
-/

namespace RootAuthority.Rsa

/-- A power modulo `p` is one in the ring of residues if it is computed as one. -/
theorem pow_eq_one_iff {p : Nat} (hp : 1 < p) (g n : Nat) :
    (g : ZMod p) ^ n = 1 ↔ Modular.pow p g n = 1 := by
  rw [← Nat.cast_pow, ← Nat.cast_one, ZMod.natCast_eq_natCast_iff', Nat.mod_eq_of_lt hp,
    Modular.pow_eq]

/-- The prime factors of a number made of twos, threes and fives. -/
theorem eq_of_dvd_smooth {i j k q : Nat} (hq : q.Prime) (h : q ∣ 3 ^ i * 5 ^ j * 2 ^ k) :
    q = 3 ∨ q = 5 ∨ q = 2 := by
  rcases hq.dvd_mul.mp h with h | h
  · rcases hq.dvd_mul.mp h with h | h
    · exact .inl ((Nat.prime_dvd_prime_iff_eq hq Nat.prime_three).mp (hq.dvd_of_dvd_pow h))
    · exact .inr (.inl ((Nat.prime_dvd_prime_iff_eq hq Nat.prime_five).mp (hq.dvd_of_dvd_pow h)))
  · exact .inr (.inr ((Nat.prime_dvd_prime_iff_eq hq Nat.prime_two).mp (hq.dvd_of_dvd_pow h)))

/-- **Lucas's test** for numbers whose predecessor has no prime factors but 2, 3 and 5. -/
theorem prime_of_smooth {i j k g m : Nat} (hm : 3 ^ i * 5 ^ j * 2 ^ k = m) (hpos : 0 < m)
    (hone : Modular.pow (m + 1) g m = 1) (h3 : Modular.pow (m + 1) g (m / 3) ≠ 1)
    (h5 : Modular.pow (m + 1) g (m / 5) ≠ 1) (h2 : Modular.pow (m + 1) g (m / 2) ≠ 1) :
    (m + 1).Prime := by
  have hp : 1 < m + 1 := Nat.succ_lt_succ hpos
  refine lucas_primality (m + 1) (g : ZMod (m + 1)) ((pow_eq_one_iff hp g _).mpr hone) ?_
  intro q hq hdvd
  rw [Ne, pow_eq_one_iff hp, Nat.add_sub_cancel]
  rcases eq_of_dvd_smooth hq (hm ▸ hdvd) with rfl | rfl | rfl
  · exact h3
  · exact h5
  · exact h2

/-- All that has to be computed to show a number fresh: that it passes Lucas's test to the base `g`,
    and its size. -/
def PassesTest (m g : Nat) : Prop :=
  (Modular.pow (m + 1) g m = 1 ∧ Modular.pow (m + 1) g (m / 3) ≠ 1 ∧
    Modular.pow (m + 1) g (m / 5) ≠ 1 ∧ Modular.pow (m + 1) g (m / 2) ≠ 1) ∧
  Octets.bitLength (m + 1) = 1024 ∧ 3 * 2 ^ 1022 ≤ m + 1

instance (m g : Nat) : Decidable (PassesTest m g) :=
  inferInstanceAs (Decidable ((_ ∧ _ ∧ _ ∧ _) ∧ _ ∧ _))

/-- **A number that passes is a fresh prime.** -/
theorem isFreshPrime_of_passesTest {i j k g : Nat} (h : PassesTest (3 ^ i * 5 ^ j * 2 ^ k) g) :
    IsFreshPrime (3 ^ i * 5 ^ j * 2 ^ k + 1) := by
  obtain ⟨⟨hone, h3, h5, h2⟩, hbits, htop⟩ := h
  have hpos : 0 < 3 ^ i * 5 ^ j * 2 ^ k := by positivity
  exact
    { prime := prime_of_smooth rfl hpos hone h3 h5 h2
      bits := hbits
      top := htop }

/-- Two primes of 1024 bits whose predecessors have small factors only. -/
def PrimePair.smooth : PrimePair :=
  ⟨3 ^ 2 * 5 ^ 39 * 2 ^ 930 + 1, 3 ^ 7 * 5 ^ 33 * 2 ^ 936 + 1⟩

/-- **There are primes that a fresh key can be made of.** -/
theorem PrimePair.isFresh_smooth : PrimePair.smooth.IsFresh where
  first := isFreshPrime_of_passesTest (g := 7) (by decide +kernel)
  second := isFreshPrime_of_passesTest (g := 17) (by decide +kernel)
  distinct := by decide +kernel
  coprime := by decide +kernel

/-- Two more primes of that kind. -/
def PrimePair.smoother : PrimePair :=
  ⟨3 ^ 11 * 5 ^ 45 * 2 ^ 902 + 1, 3 ^ 20 * 5 ^ 28 * 2 ^ 927 + 1⟩

theorem PrimePair.isFresh_smoother : PrimePair.smoother.IsFresh where
  first := isFreshPrime_of_passesTest (g := 11) (by decide +kernel)
  second := isFreshPrime_of_passesTest (g := 17) (by decide +kernel)
  distinct := by decide +kernel
  coprime := by decide +kernel

/-- Their products differ. -/
theorem PrimePair.modulus_ne : (PrivateKey.ofPrimes .smooth).modulus
    ≠ (PrivateKey.ofPrimes .smoother).modulus := by decide +kernel

end RootAuthority.Rsa
