import Mathlib.Data.Int.GCD
import Mathlib.Data.Int.ModEq
import RootAuthority.Modular

/-!
# Powers and inverses modulo a number

Repeated squaring computes the power (`Modular.pow_eq`). The Euclidean algorithm keeps each remainder
congruent to a multiple of the first number, with the coefficient it carries along
(`Modular.euclid_modEq`), and ends at the common divisor (`Modular.euclid_fst`). So the inverse of a
number without a common factor is its inverse (`Modular.inverse_mul_mod`).
-/

namespace RootAuthority.Modular

/-! ## 1. Powers -/

/-- **Repeated squaring computes the power.** -/
theorem pow_eq (m b e : Nat) : pow m b e = b ^ e % m := by
  induction e using Nat.strongRecOn generalizing b with
  | _ e ih =>
    rw [pow]
    by_cases he : e = 0
    · simp [he]
    · have hlt : e / 2 < e := by omega
      simp only [he, ↓reduceIte, ih _ hlt]
      have hsq : (b * b % m) ^ (e / 2) % m = b ^ (2 * (e / 2)) % m := by
        rw [← Nat.pow_mod, ← Nat.pow_two, ← Nat.pow_mul]
      by_cases ho : e % 2 = 1
      · simp only [ho, ↓reduceIte, hsq]
        rw [Nat.mul_mod, Nat.mod_mod, ← Nat.mul_mod, ← Nat.pow_succ']
        congr 2
        omega
      · simp only [ho, ↓reduceIte, hsq]
        congr 2
        omega

/-! ## 2. Inverses -/

theorem euclid_fst (r r' : Nat) (s s' : Int) : (euclid r r' s s').1 = Nat.gcd r r' := by
  induction r' using Nat.strongRecOn generalizing r s s' with
  | _ r' ih =>
    rw [euclid]
    by_cases h : r' = 0
    · rw [if_pos h, h, Nat.gcd_zero_right]
    · rw [if_neg h, ih _ (Nat.mod_lt _ (Nat.pos_of_ne_zero h)), Nat.gcd_comm, ← Nat.gcd_rec,
        Nat.gcd_comm]

/-- **One division keeps both congruences**, so the last remainder has its coefficient too. -/
theorem euclid_modEq {a m : Int} (r r' : Nat) (s s' : Int) (h : r ≡ s * a [ZMOD m])
    (h' : r' ≡ s' * a [ZMOD m]) :
    (euclid r r' s s').1 ≡ (euclid r r' s s').2 * a [ZMOD m] := by
  induction r' using Nat.strongRecOn generalizing r s s' with
  | _ r' ih =>
    rw [euclid]
    by_cases hr : r' = 0
    · rw [if_pos hr]
      exact h
    · rw [if_neg hr]
      refine ih _ (Nat.mod_lt _ (Nat.pos_of_ne_zero hr)) _ _ _ h' ?_
      have hdiv : ((r % r' : Nat) : Int) = r - (r / r' : Nat) * r' := by
        rw [Int.natCast_mod, Int.natCast_div, Int.emod_def, Int.mul_comm]
      rw [hdiv, Int.sub_mul, Int.mul_assoc]
      exact h.sub (h'.mul_left _)

theorem inverse_lt {m : Nat} (hm : 0 < m) (a : Nat) : inverse a m < m := by
  have hpos : (0 : Int) < m := Int.natCast_pos.mpr hm
  have hlt := Int.emod_lt_of_pos (euclid (a % m) m 1 0).2 hpos
  have hge := Int.emod_nonneg (euclid (a % m) m 1 0).2 (Int.ne_of_gt hpos)
  unfold inverse
  omega

/-- **A number without a common factor times its inverse is one.** -/
theorem inverse_mul_mod {a m : Nat} (hm : 1 < m) (h : Nat.Coprime a m) :
    inverse a m * a % m = 1 := by
  have hpos : (0 : Int) < m := Int.natCast_pos.mpr (by omega)
  have hgcd : (euclid (a % m) m 1 0).1 = 1 := by
    rw [euclid_fst, ← Nat.gcd_rec, Nat.gcd_comm]
    exact h
  have hmod := euclid_modEq (a := a) (m := m) (a % m) m 1 0
    (by rw [Int.one_mul, Int.natCast_mod]; exact Int.mod_modEq _ _)
    (by rw [Int.zero_mul]; exact Int.modEq_zero_iff_dvd.mpr (Int.dvd_refl _))
  rw [hgcd] at hmod
  have hinv : ((inverse a m : Nat) : Int) = (euclid (a % m) m 1 0).2 % m :=
    Int.toNat_of_nonneg (Int.emod_nonneg _ (Int.ne_of_gt hpos))
  have hone : ((inverse a m * a : Nat) : Int) ≡ (1 : Nat) [ZMOD m] := by
    rw [Int.natCast_mul, hinv]
    exact ((Int.mod_modEq _ _).mul_right _).trans hmod.symm
  rw [Int.natCast_modEq_iff] at hone
  rw [hone, Nat.mod_eq_of_lt hm]

end RootAuthority.Modular
