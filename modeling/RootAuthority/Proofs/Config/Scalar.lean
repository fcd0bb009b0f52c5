import Mathlib.Data.List.Basic
import RootAuthority.Config.Scalar

/-!
# Numbers are read as they are written

A number in base ten has no leading zero, no sign and no mark for another base, so it is read as
itself (`number?_toString`).
-/

namespace RootAuthority.Config

/-! ## 1. Digits -/

theorem digit?_digitChar : ∀ n < 10, digit? 10 (Nat.digitChar n) = some n := by decide

/-- The digits of a number add up to it. -/
theorem foldlM_toDigits (n : Nat) :
    (Nat.toDigits 10 n).foldlM (fun n c => (digit? 10 c).map (n * 10 + ·)) 0 = some n := by
  induction n using Nat.strongRecOn with
  | ind n ih =>
    rw [Nat.toDigits_eq_if (by decide)]
    split
    · next hsmall => simp [digit?_digitChar n hsmall]
    · next hlarge =>
      rw [List.foldlM_append, ih (n / 10) (by omega)]
      have hdigit := digit?_digitChar (n % 10) (Nat.mod_lt n (by decide))
      simp [hdigit, Nat.div_add_mod' n 10]

theorem digits?_toDigits (n : Nat) : digits? 10 (Nat.toDigits 10 n) = some n := by
  rw [digits?, if_neg (by simp [Nat.toDigits_ne_nil]), foldlM_toDigits]

/-- Only zero starts with a zero. -/
theorem head?_toDigits {n : Nat} (hn : 0 < n) : (Nat.toDigits 10 n).head? ≠ some '0' := by
  induction n using Nat.strongRecOn with
  | ind n ih =>
    rw [Nat.toDigits_eq_if (by decide)]
    split
    · next hsmall =>
      have hdigit : ∀ n < 10, 0 < n → Nat.digitChar n ≠ '0' := by decide
      simpa using hdigit n hsmall hn
    · next hlarge =>
      rw [List.head?_append_of_ne_nil _ Nat.toDigits_ne_nil]
      exact ih (n / 10) (by omega) (by omega)

/-! ## 2. Numbers -/

theorem unsigned?_toDigits (n : Nat) : unsigned? (Nat.toDigits 10 n) = some n := by
  obtain rfl | hn := Nat.eq_zero_or_pos n
  · rfl
  · have hhead := head?_toDigits hn
    have hdigits := digits?_toDigits n
    revert hhead hdigits
    generalize Nat.toDigits 10 n = cs
    intro hhead hdigits
    unfold unsigned?
    split <;> simp_all

/-- **A number that fits its 32 bits is read as it is written.** -/
theorem number?_toString {n : Nat} (h : n < 0x1_0000_0000) : number? (toString n) = some n := by
  have hplus : '+' ∉ Nat.toDigits 10 n := fun hmem =>
    absurd (Nat.isDigit_of_mem_toDigits (by decide) (by decide) hmem) (by decide)
  rw [number?, Nat.toString_eq_repr, Nat.toList_repr]
  split
  · next cs hsign =>
    exact absurd (hsign ▸ List.mem_cons_self) hplus
  · rw [unsigned?_toDigits]
    simp [h]

end RootAuthority.Config
