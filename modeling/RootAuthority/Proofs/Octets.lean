import Mathlib.Algebra.Group.Nat.Defs
import Mathlib.Data.List.Induction
import RootAuthority.Octets

/-!
# What octets spell, and what reading them back gives

* A number is read back from the octets it was written to (`Octets.toNat_ofNat`,
  `Octets.toNat_ofNatMin`), and the least width holds it and no octet less (`Octets.lt_pow_width`,
  `Octets.width_le`).
* Gathering octets in a word of 64 bits loses nothing as long as there are no more than eight of
  them (`Octets.toNat_toWord`).
* The octets of a text are read back as that text (`Octets.toText?_ofText`), and those of an ASCII
  text are its characters one by one (`Octets.ofText_ofList`).
-/

namespace RootAuthority.Octets

/-! ## 1. Unsigned numbers -/

theorem foldl_toNat (bs : Octets) : ∀ n : Nat,
    bs.foldl (fun n b => n * 256 + b.toNat) n = n * 256 ^ bs.length + toNat bs := by
  induction bs with
  | nil => simp
  | cons b bs ih =>
    intro n
    have h1 := ih (n * 256 + b.toNat)
    have h2 := ih (0 * 256 + b.toNat)
    simp only [toNat, List.foldl_cons, List.length_cons] at h1 h2 ⊢
    rw [h1, h2, Nat.pow_succ, Nat.add_mul, Nat.zero_mul, Nat.zero_add, Nat.mul_assoc,
      Nat.mul_comm 256, Nat.add_assoc]

theorem toNat_append (a b : Octets) : toNat (a ++ b) = toNat a * 256 ^ b.length + toNat b := by
  rw [toNat, List.foldl_append, foldl_toNat b]
  rfl

theorem toNat_cons (b : UInt8) (bs : Octets) :
    toNat (b :: bs) = b.toNat * 256 ^ bs.length + toNat bs := by
  have h := toNat_append [b] bs
  simpa [toNat] using h

/-- **A number read from octets fits their width.** -/
theorem toNat_lt (bs : Octets) : toNat bs < 256 ^ bs.length := by
  induction bs with
  | nil => simp
  | cons b bs ih =>
    have hb : b.toNat + 1 ≤ 256 := b.toNat_lt
    have hm := Nat.mul_le_mul_right (256 ^ bs.length) hb
    rw [toNat_cons, List.length_cons, Nat.pow_succ, Nat.mul_comm (256 ^ bs.length) 256]
    rw [Nat.add_mul] at hm
    omega

theorem toNat_pushNat : ∀ (w n : Nat) (tail : Octets),
    toNat (pushNat w n tail) = n % 256 ^ w * 256 ^ tail.length + toNat tail
  | 0, n, tail => by simp [pushNat, Nat.mod_one]
  | w + 1, n, tail => by
      have hdig : n % 256 ^ (w + 1) = n / 256 % 256 ^ w * 256 + n % 256 := by
        rw [Nat.pow_succ, Nat.mul_comm (256 ^ w) 256, Nat.mod_mul, Nat.mul_comm 256,
          Nat.add_comm]
      have hb : (UInt8.ofNat n).toNat = n % 256 := by simp
      rw [pushNat, toNat_pushNat w, toNat_cons, hb, hdig, List.length_cons, Nat.pow_succ,
        Nat.add_mul, Nat.mul_comm (256 ^ tail.length) 256, Nat.mul_assoc, Nat.add_assoc]

/-- **A number is read back from the octets it was written to**, as far as they hold it. -/
theorem toNat_ofNat (w n : Nat) : toNat (ofNat w n) = n % 256 ^ w := by
  simp [ofNat, toNat_pushNat]

theorem lt_pow_width (n : Nat) : n < 256 ^ width n := by
  unfold width
  split
  · omega
  · rename_i hn
    have h1 : n < 2 ^ (n.log2 + 1) := Nat.lt_log2_self
    have h2 : 2 ^ (n.log2 + 1) ≤ 2 ^ (8 * (n.log2 / 8 + 1)) :=
      Nat.pow_le_pow_right (by decide) (by omega)
    rw [Nat.pow_mul] at h2
    exact Nat.lt_of_lt_of_le h1 h2

/-- No width below the least one holds the number. -/
theorem width_le {n w : Nat} (h : n < 256 ^ w) : width n ≤ w := by
  unfold width
  split
  · omega
  · rename_i hn
    have h1 : 2 ^ n.log2 ≤ n := Nat.log2_self_le hn
    have h2 : n < 2 ^ (8 * w) := by rwa [Nat.pow_mul]
    have h3 : n.log2 < 8 * w := (Nat.pow_lt_pow_iff_right (by decide)).mp (Nat.lt_of_le_of_lt h1 h2)
    omega

theorem width_pos {n : Nat} (h : 0 < n) : 0 < width n := by
  have hlt := lt_pow_width n
  refine Nat.pos_of_ne_zero fun e => ?_
  rw [e] at hlt
  omega

@[simp] theorem toNat_ofNatMin (n : Nat) : toNat (ofNatMin n) = n := by
  rw [ofNatMin, toNat_ofNat, Nat.mod_eq_of_lt (lt_pow_width n)]

@[simp] theorem length_ofNatMin (n : Nat) : (ofNatMin n).length = width n := by simp [ofNatMin]

theorem splitAt?_ofNatMin (n : Nat) (rest : Octets) :
    splitAt? (width n) (ofNatMin n ++ rest) = some (ofNatMin n, rest) := by
  have h := splitAt?_append (ofNatMin n) rest
  rwa [length_ofNatMin] at h

theorem ofNatMin_eq_nil {n : Nat} (h : ofNatMin n = []) : n = 0 := by
  rw [← toNat_ofNatMin n, h, toNat_nil]

/-- The least width leaves no zero in front. -/
theorem head_ofNatMin_ne_zero {n : Nat} {b : UInt8} {bs : Octets} (h : ofNatMin n = b :: bs) :
    b ≠ 0 := by
  rintro rfl
  have hv : n = toNat bs := by
    rw [← toNat_ofNatMin n, h, toNat_cons]
    simp
  have hlen : width n = bs.length + 1 := by
    rw [← length_ofNatMin n, h, List.length_cons]
  have hle : width n ≤ bs.length := width_le (hv ▸ toNat_lt bs)
  omega

theorem width_mono {a b : Nat} (h : a ≤ b) : width a ≤ width b :=
  width_le (Nat.lt_of_le_of_lt h (lt_pow_width b))

/-- A number with fewer octets than its width would have that width. -/
theorem pow_width_le {n : Nat} (h : 0 < n) : 256 ^ (width n - 1) ≤ n := by
  have hpos := width_pos h
  refine Nat.le_of_not_lt fun hlt => ?_
  have hle := width_le hlt
  omega

/-- The least width, counted in bits. -/
theorem width_eq_bitLength (n : Nat) : width n = (bitLength n + 7) / 8 := by
  unfold width bitLength
  split
  · rfl
  · omega

theorem bitLength_le {n k : Nat} (h : n < 2 ^ k) : bitLength n ≤ k := by
  unfold bitLength
  split
  · omega
  · rename_i hn
    have h1 : 2 ^ n.log2 < 2 ^ k := Nat.lt_of_le_of_lt (Nat.log2_self_le hn) h
    exact (Nat.pow_lt_pow_iff_right (by decide)).mp h1

theorem lt_bitLength {n k : Nat} (h : 2 ^ k ≤ n) : k < bitLength n := by
  have hn : n ≠ 0 := fun e => by
    have := Nat.two_pow_pos k
    omega
  have h1 : n < 2 ^ (n.log2 + 1) := Nat.lt_log2_self
  rw [bitLength, if_neg hn]
  exact (Nat.pow_lt_pow_iff_right (by decide)).mp (Nat.lt_of_le_of_lt h h1)

theorem bitLength_eq {n k : Nat} (hl : 2 ^ k ≤ n) (hu : n < 2 ^ (k + 1)) : bitLength n = k + 1 := by
  have h1 := lt_bitLength hl
  have h2 := bitLength_le hu
  omega

theorem lt_pow_of_bitLength_le {n k : Nat} (h : bitLength n ≤ k) : n < 2 ^ k := by
  refine Nat.lt_of_not_le fun hle => ?_
  have := lt_bitLength hle
  omega

/-! ## 2. Words -/

/-- A word that leaves eight bits free is moved up without loss. -/
theorem toNat_moveUp {word : UInt64} (h : word.toNat < 256 ^ 7) :
    (word <<< 8).toNat = word.toNat * 256 := by
  rw [UInt64.toNat_shiftLeft, Nat.shiftLeft_eq]
  exact Nat.mod_eq_of_lt (by simp at *; omega)

theorem toNat_moveUp_or {word : UInt64} (h : word.toNat < 256 ^ 7) (b : UInt8) :
    (word <<< 8 ||| b.toUInt64).toNat = word.toNat * 256 + b.toNat := by
  have hb : b.toNat < 2 ^ 8 := b.toNat_lt
  rw [UInt64.toNat_or, toNat_moveUp h, UInt8.toNat_toUInt64, Nat.mul_comm]
  exact (Nat.two_pow_add_eq_or_of_lt hb word.toNat).symm

theorem toWord_concat (bs : Octets) (b : UInt8) :
    toWord (bs ++ [b]) = toWord bs <<< 8 ||| b.toUInt64 := by
  rw [toWord, List.foldl_append]
  rfl

/-- **Up to eight octets are gathered without loss.** -/
theorem toNat_toWord {bs : Octets} (h : bs.length ≤ 8) : (toWord bs).toNat = toNat bs := by
  -- the last octet is the one that was gathered last
  induction bs using List.reverseRecOn with
  | nil => rfl
  | append_singleton bs b ih =>
    rw [List.length_append, List.length_singleton] at h
    have hbs := ih (by omega)
    have hfree : (toWord bs).toNat < 256 ^ 7 := by
      rw [hbs]
      exact Nat.lt_of_lt_of_le (toNat_lt bs) (Nat.pow_le_pow_right (by decide) (by omega))
    rw [toWord_concat, toNat_moveUp_or hfree, hbs, toNat_append, List.length_singleton, Nat.pow_one]
    simp [toNat]

/-- **No bit is lost on the way**: before each of up to eight octets the word is moved up without
    loss. -/
theorem toNat_moveUp_front {front back : Octets} {b : UInt8}
    (h : (front ++ b :: back).length ≤ 8) : (toWord front <<< 8).toNat = toNat front * 256 := by
  rw [List.length_append, List.length_cons] at h
  have hfront := @toNat_toWord front (by omega)
  rw [toNat_moveUp, hfront]
  rw [hfront]
  exact Nat.lt_of_lt_of_le (toNat_lt front) (Nat.pow_le_pow_right (by decide) (by omega))

/-! ## 3. Text -/

@[simp] theorem toText?_ofText (s : String) : (ofText s).toText? = some s := by
  have hb : (⟨(ofText s).toArray⟩ : ByteArray) = s.toByteArray := by simp [ofText]
  rw [toText?, hb, String.fromUTF8?, dif_pos s.isValidUTF8]
  rfl

@[simp] theorem ofText_append (s t : String) : ofText (s ++ t) = ofText s ++ ofText t := by
  simp [ofText]

theorem ofText_ofList (cs : List Char) :
    ofText (String.ofList cs) = cs.flatMap String.utf8EncodeChar := by
  simp [ofText, List.utf8Encode]

/-- **The octets of an ASCII text are its characters.** -/
theorem ofText_ofList_ascii {cs : List Char} (h : ∀ c ∈ cs, c.toNat < 128) :
    ofText (String.ofList cs) = cs.map fun c => UInt8.ofNat c.toNat := by
  rw [ofText_ofList]
  induction cs with
  | nil => rfl
  | cons c cs ih =>
    have hc : c.toNat < 128 := h c List.mem_cons_self
    have h1 : c.utf8Size = 1 :=
      Char.utf8Size_eq_one_iff.mpr (UInt32.le_iff_toNat_le.mpr (Nat.le_of_lt_succ hc))
    rw [List.flatMap_cons, List.map_cons, ih fun d hd => h d (List.mem_cons_of_mem _ hd),
      String.utf8EncodeChar_eq_singleton h1]
    rfl

end RootAuthority.Octets
