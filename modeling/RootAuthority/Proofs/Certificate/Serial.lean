import RootAuthority.Proofs.Certificate.Reader
import RootAuthority.Proofs.Der.Number

/-!
# The number that the octets of a serial number spell

Zero octets in front change nothing about a number, and without them its octets are as many as it
needs (`Octets.length_dropWhile`). So the serial number of a certificate is the number that its
octets spell, however many zeros lead them, exactly if that number fits 64 bits
(`Certificate.serialNumber?_eq`). It is gathered in a word of 64 bits, of which no bit is lost on the
way (`Certificate.toNat_moveUp_of_serialNumber?`).
-/

namespace RootAuthority

namespace Octets

theorem toNat_dropWhile (bs : Octets) : toNat (bs.dropWhile (· = 0)) = toNat bs := by
  induction bs with
  | nil => rfl
  | cons b bs ih =>
    by_cases hb : b = 0
    · have hzero : toNat (b :: bs) = toNat bs := by
        rw [toNat_cons, hb]
        simp
      rw [List.dropWhile_cons_of_pos (by simpa using hb), ih, hzero]
    · rw [List.dropWhile_cons_of_neg (by simpa using hb)]

/-- An octet other than zero in front of others counts. -/
theorem pow_length_le_toNat {b : UInt8} (hb : b ≠ 0) (bs : Octets) :
    256 ^ bs.length ≤ toNat (b :: bs) := by
  have hpos : 0 < b.toNat := Nat.pos_of_ne_zero fun hzero => hb (UInt8.toNat_inj.mp hzero)
  rw [toNat_cons]
  exact Nat.le_trans (Nat.le_mul_of_pos_left _ hpos) (Nat.le_add_right _ _)

/-- **Without zeros in front a number has as many octets as it needs.** -/
theorem length_dropWhile (bs : Octets) : (bs.dropWhile (· = 0)).length = width (toNat bs) := by
  rw [← toNat_dropWhile bs]
  have hhead := List.head?_dropWhile_not (fun b : UInt8 => decide (b = 0)) bs
  generalize bs.dropWhile (fun b => decide (b = 0)) = digits at hhead ⊢
  cases digits with
  | nil => rfl
  | cons b digits =>
    have hb : b ≠ 0 := by simpa using hhead
    have hle := width_le (toNat_lt (b :: digits))
    refine Nat.le_antisymm (Nat.le_of_not_lt fun hlt => ?_) hle
    have hfits := Nat.lt_of_lt_of_le (lt_pow_width (toNat (b :: digits)))
      (Nat.pow_le_pow_right (by decide) (Nat.le_of_lt_succ hlt))
    exact absurd (pow_length_le_toNat hb digits) (Nat.not_le.mpr hfits)

/-- A number takes no more than `w` octets exactly if it is below the first that takes more. -/
theorem width_le_iff {n w : Nat} : width n ≤ w ↔ n < 256 ^ w :=
  ⟨fun h => Nat.lt_of_lt_of_le (lt_pow_width n) (Nat.pow_le_pow_right (by decide) h), width_le⟩

end Octets

namespace Certificate

/-- **The serial number is the number that its octets spell**, if that fits 64 bits. -/
theorem serialNumber?_eq (c : Certificate) : c.serialNumber?
    = if Octets.toNat c.serial < 2 ^ 64 then some (Octets.toNat c.serial) else none := by
  have hfits : 8 < (c.serial.dropWhile (· = 0)).length ↔ ¬Octets.toNat c.serial < 2 ^ 64 := by
    rw [Octets.length_dropWhile, ← Nat.not_le]
    exact not_congr Octets.width_le_iff
  unfold serialNumber?
  dsimp only
  by_cases hlong : 8 < (c.serial.dropWhile (· = 0)).length
  · rw [if_pos hlong, if_neg (hfits.mp hlong)]
  · rw [if_neg hlong, if_pos (Classical.not_not.mp fun h => hlong (hfits.mpr h)),
      Octets.toNat_toWord (Nat.le_of_not_lt hlong), Octets.toNat_dropWhile]

theorem serialNumber?_eq_some_iff {c : Certificate} {n : Nat} :
    c.serialNumber? = some n ↔ Octets.toNat c.serial = n ∧ n < 2 ^ 64 := by
  rw [serialNumber?_eq]
  by_cases hlt : Octets.toNat c.serial < 2 ^ 64
  · rw [if_pos hlt, Option.some.injEq]
    exact ⟨fun h => ⟨h, h ▸ hlt⟩, And.left⟩
  · rw [if_neg hlt]
    exact iff_of_false (by simp) fun ⟨h, hfits⟩ => hlt (h ▸ hfits)

theorem serialNumber?_eq_none_iff {c : Certificate} :
    c.serialNumber? = none ↔ 2 ^ 64 ≤ Octets.toNat c.serial := by
  rw [serialNumber?_eq, ite_eq_right_iff, ← Nat.not_lt]
  exact forall_congr' fun _ => iff_of_false (Option.some_ne_none _) id

/-- **No bit of a serial number is lost** while its octets are gathered one after the other. -/
theorem toNat_moveUp_of_serialNumber? {c : Certificate} {n : Nat} {front back : Octets} {b : UInt8}
    (h : c.serialNumber? = some n) (hsplit : c.serial.dropWhile (· = 0) = front ++ b :: back) :
    (Octets.toWord front <<< 8).toNat = Octets.toNat front * 256 := by
  have hfits : (front ++ b :: back).length ≤ 8 := by
    rw [← hsplit]
    refine Nat.le_of_not_lt fun hlong => ?_
    rw [serialNumber?, if_pos hlong] at h
    cases h
  exact Octets.toNat_moveUp_front hfits

end Certificate

/-- The serial number that a template asks for is read back. -/
theorem Template.serialNumber?_certificate (t : Template) (signed signature : Octets)
    (h : t.serial < 2 ^ 64) : (t.certificate signed signature).serialNumber? = some t.serial := by
  have hspelled : Octets.toNat (t.certificate signed signature).serial = t.serial :=
    Der.toNat_integerContent t.serial
  rw [Certificate.serialNumber?_eq, hspelled, if_pos h]

end RootAuthority
