import RootAuthority.Proofs.Der.Number

/-!
# Integers are written in their shortest form

The contents of an integer are a number in two's complement: if the first bit is set, it counts
against the others (`Octets.toInt`). So a number that is not negative has a first octet below 128
(`Octets.toInt_eq_natCast_iff`), and where its own first octet is not, a zero octet is put in front.
What is written in this way is the shortest form of the number, and no other form is as short
(`Der.isShortestForm_integerContent`).
-/

namespace RootAuthority

namespace Octets

/-! ## 1. Two's complement -/

/-- **The number spelled by the octets in two's complement**, most significant first. -/
def toInt : Octets → Int
  | [] => 0
  | b :: bs =>
    if b < 128 then toNat (b :: bs) else toNat (b :: bs) - (256 ^ (b :: bs).length : Nat)

/-- Numbers that are not negative are told by their first octet. -/
theorem toInt_eq_natCast_iff {b : UInt8} {bs : Octets} {n : Nat} :
    toInt (b :: bs) = n ↔ b < 128 ∧ toNat (b :: bs) = n := by
  rw [toInt]
  by_cases hb : b < 128
  · rw [if_pos hb, Int.natCast_inj]
    exact (and_iff_right hb).symm
  · have hlt := toNat_lt (b :: bs)
    rw [if_neg hb]
    refine ⟨fun hspelled => ?_, fun h => absurd h.1 hb⟩
    omega

theorem head_le_of_toNat_eq {a b : UInt8} {as bs : Octets} (hlength : as.length = bs.length)
    (h : toNat (a :: as) = toNat (b :: bs)) : a.toNat ≤ b.toNat := by
  have hbs := toNat_lt bs
  rw [toNat_cons, toNat_cons, hlength] at h
  refine Nat.le_of_not_lt fun hlt => ?_
  have hmul := Nat.mul_le_mul_right (256 ^ bs.length) hlt
  rw [Nat.succ_mul] at hmul
  omega

/-- **Octets of one length are told apart by the number that they spell.** -/
theorem eq_of_toNat_eq : ∀ {as bs : Octets}, as.length = bs.length → toNat as = toNat bs → as = bs
  | [], [], _, _ => rfl
  | a :: as, b :: bs, hlength, h => by
      have hlength' : as.length = bs.length := Nat.succ.inj hlength
      have hhead : a.toNat = b.toNat :=
        Nat.le_antisymm (head_le_of_toNat_eq hlength' h) (head_le_of_toNat_eq hlength'.symm h.symm)
      rw [toNat_cons, toNat_cons, hlength', hhead] at h
      rw [UInt8.toNat_inj.mp hhead, eq_of_toNat_eq hlength' (Nat.add_left_cancel h)]

/-! ## 2. Shortest forms -/

/-- **The shortest form of a number**: all other octets that spell it are more. -/
structure IsShortestForm (bs : Octets) (n : Int) : Prop where
  ne_nil : bs ≠ []
  value : toInt bs = n
  shortest : ∀ other : Octets, other ≠ [] → toInt other = n →
    other = bs ∨ bs.length < other.length

/-- The shortest form of a positive number begins with an octet below 128, which is zero only if the
    one behind it is not. -/
theorem IsShortestForm.first {bs : Octets} {n : Nat} (h : bs.IsShortestForm n) (hn : 0 < n) :
    ∃ b rest, bs = b :: rest ∧ b < 128 ∧
      (b = 0 → ∃ c more, rest = c :: more ∧ 128 ≤ c) := by
  obtain ⟨b, rest, rfl⟩ := List.exists_cons_of_ne_nil h.ne_nil
  obtain ⟨hb, hvalue⟩ := toInt_eq_natCast_iff.mp h.value
  refine ⟨b, rest, rfl, hb, fun hzero => ?_⟩
  subst hzero
  rw [toNat_cons, UInt8.toNat_zero, Nat.zero_mul, Nat.zero_add] at hvalue
  cases rest with
  | nil =>
    rw [toNat_nil] at hvalue
    omega
  | cons c more =>
    refine ⟨c, more, rfl, UInt8.not_lt.mp fun hc => ?_⟩
    -- without the zero the octets spell the same number, and are fewer
    rcases h.shortest (c :: more) (by simp) (toInt_eq_natCast_iff.mpr ⟨hc, hvalue⟩) with heq | hlt
    · have hlength := congrArg List.length heq
      simp at hlength
    · rw [List.length_cons, List.length_cons] at hlt
      omega

/-- The shortest form of a number of `w` octets has at most one octet more. -/
theorem IsShortestForm.length_le {bs : Octets} {n w : Nat} (h : bs.IsShortestForm n)
    (hn : n < 256 ^ w) : bs.length ≤ w + 1 := by
  have hvalue : toNat (0 :: ofNat w n) = n := by
    rw [toNat_cons, toNat_ofNat, Nat.mod_eq_of_lt hn]
    simp
  have hspelled := toInt_eq_natCast_iff.mpr ⟨(by decide : (0 : UInt8) < 128), hvalue⟩
  rcases h.shortest (0 :: ofNat w n) (by simp) hspelled with heq | hlt
  · exact Nat.le_of_eq (by rw [← heq, List.length_cons, length_ofNat])
  · rw [List.length_cons, length_ofNat] at hlt
    omega

end Octets

namespace Der

/-! ## 3. Integers -/

/-- Whatever spells a number is at least as long as the contents of its integer. -/
theorem length_integerContent_le_of_toNat {n : Nat} {c : UInt8} {cs : Octets} (hc : c < 128)
    (h : Octets.toNat (c :: cs) = n) : (integerContent n).length ≤ (c :: cs).length := by
  have hwidth : Octets.width n ≤ (c :: cs).length := Octets.width_le (h ▸ Octets.toNat_lt _)
  have hlength := Octets.length_ofNatMin n
  have hvalue := Octets.toNat_ofNatMin n
  unfold integerContent
  split
  · exact Nat.succ_le_of_lt (Nat.zero_lt_succ cs.length)
  · next b bs hmin =>
    rw [hmin] at hlength hvalue
    split
    · omega
    · next hb =>
      -- as many octets as the number needs would be the number's own, and begin above 127
      have hne : (b :: bs).length ≠ (c :: cs).length := fun hsame => by
        have heq := Octets.eq_of_toNat_eq hsame (hvalue.trans h.symm)
        rw [List.cons.injEq] at heq
        exact hb (heq.1 ▸ hc)
      rw [List.length_cons]
      omega

/-- **An integer is written in the shortest form of its number.** -/
theorem isShortestForm_integerContent (n : Nat) :
    (integerContent n).IsShortestForm n := by
  obtain ⟨b, bs, hcontent, hb⟩ : ∃ b bs, integerContent n = b :: bs ∧ b < 128 := by
    unfold integerContent
    split
    · exact ⟨0, [], rfl, by decide⟩
    · split
      · next hb => exact ⟨_, _, rfl, hb⟩
      · exact ⟨0, _, rfl, by decide⟩
  have hvalue := toNat_integerContent n
  have hlength (c : UInt8) (cs : Octets) (hc : c < 128) (h : Octets.toNat (c :: cs) = n) :=
    length_integerContent_le_of_toNat hc h
  rw [hcontent] at hvalue hlength ⊢
  refine ⟨by simp, Octets.toInt_eq_natCast_iff.mpr ⟨hb, hvalue⟩, fun other hother hspelled => ?_⟩
  obtain ⟨c, cs, rfl⟩ := List.exists_cons_of_ne_nil hother
  obtain ⟨hc, hnumber⟩ := Octets.toInt_eq_natCast_iff.mp hspelled
  rcases Nat.lt_or_eq_of_le (hlength c cs hc hnumber) with hlt | heq
  · exact .inr hlt
  · exact .inl (Octets.eq_of_toNat_eq heq.symm (hnumber.trans hvalue.symm))

example : integerContent 127 = [127] ∧ integerContent 128 = [0, 128] := by decide

end Der

end RootAuthority
