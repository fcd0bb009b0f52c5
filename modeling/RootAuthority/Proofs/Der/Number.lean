import RootAuthority.Der.Compact
import RootAuthority.Proofs.Der.Element

/-!
# Numbers, and the two narrow readers of key files

Key files and public keys are read by readers that accept only the shortest form of every length and
number. Both accept what this library writes:

* `unsigned?_integerContent`: a number is read back from the contents of its integer, the zero
  octet in front of a set high bit included.
* `Strict.readUnsigned_integer` and `Compact.readUnsigned_integer`: and from the whole integer.
* `Strict.readTagged_encode` and `Compact.readTagged_encode`: an element is read back by its tag
  octet, as long as its contents fit the length fields that the reader takes.
* `readMany_encode`: what holds for one item holds for a row of items.
-/

namespace RootAuthority

/-- **A row of items is read back** if each of them is, whatever follows it. -/
theorem Octets.readMany_encode {α : Type} {read : Octets → Option (α × Octets)}
    {encode : α → Octets} : ∀ (items : List α) (rest : Octets),
    (∀ a ∈ items, ∀ rest, read (encode a ++ rest) = some (a, rest)) →
    Octets.readMany read items.length ((items.map encode).flatten ++ rest) = some (items, rest)
  | [], rest, _ => by simp [Octets.readMany]
  | a :: items, rest, h => by
      have ih := readMany_encode items rest fun b hb => h b (List.mem_cons_of_mem a hb)
      have ha := h a List.mem_cons_self ((items.map encode).flatten ++ rest)
      simp [Octets.readMany, ha, ih]

namespace Der

/-! ## 1. The contents of an integer -/

theorem length_integerContent_le (n : Nat) :
    (integerContent n).length ≤ Octets.width n + 1 := by
  have hl := Octets.length_ofNatMin n
  unfold integerContent
  split
  · simp
  · rename_i b bs hb
    rw [hb] at hl
    split <;> simp only [List.length_cons] at hl ⊢ <;> omega

/-- **The contents of an integer spell its number.** -/
theorem toNat_integerContent (n : Nat) : Octets.toNat (integerContent n) = n := by
  have hv := Octets.toNat_ofNatMin n
  unfold integerContent
  split
  · rename_i hb
    rw [Octets.ofNatMin_eq_nil hb]
    rfl
  · rename_i b bs hb
    rw [hb] at hv
    split
    · exact hv
    · rw [Octets.toNat_cons]
      simpa using hv

/-- **A number is read back from the contents of its integer**: these are its only form. -/
theorem unsigned?_integerContent (n : Nat) : Strict.unsigned? (integerContent n) = some n := by
  have hv := toNat_integerContent n
  unfold integerContent at hv ⊢
  split
  · rename_i hb
    rw [Octets.ofNatMin_eq_nil hb]
    rfl
  · rename_i b bs hb
    rw [hb] at hv
    have hb0 : b ≠ 0 := Octets.head_ofNatMin_ne_zero hb
    by_cases h128 : b < 128
    · simp only [h128, if_true] at hv ⊢
      cases bs with
      | nil => simpa [Strict.unsigned?, h128, Octets.toNat] using hv
      | cons c bs => simp [Strict.unsigned?, h128, hb0, hv]
    · simp only [h128, if_false] at hv ⊢
      have hge : 128 ≤ b := UInt8.not_lt.mp h128
      simp [Strict.unsigned?, hge, hv]

/-! ## 2. The reader of key files -/

namespace Strict

theorem readLength_encodeLength {n : Nat} (h : n ≤ lengthLimit) (rest : Octets) :
    readLength (encodeLength n ++ rest) = some (n, rest) := by
  have h3 : ¬ lengthLimit < n := by omega
  by_cases hn : n < 128
  · simp [encodeLength_short hn, readLength, lengthOctet_lt hn, toNat_lengthOctet hn]
  · have he := encodeLength_long (n := n) (by omega)
    have hw4 : Octets.width n ≤ 4 := Octets.width_le (by rw [lengthLimit] at h; omega)
    have hw0 : 0 < Octets.width n := Octets.width_pos (by omega)
    have hv := toNat_lengthMark (w := Octets.width n) (by omega)
    have h1 := lengthMark_not_lt (w := Octets.width n) (by omega)
    have h2 : ¬ (UInt8.ofNat (128 + Octets.width n) < 0x81 ∨
        0x84 < UInt8.ofNat (128 + Octets.width n)) := by
      rw [UInt8.lt_iff_toNat_lt, UInt8.lt_iff_toNat_lt, hv]
      simp
      omega
    simp only [he, List.cons_append, readLength, h1, h2, if_false, hv, Nat.add_sub_cancel_left,
      Octets.splitAt?_ofNatMin]
    simp [h3, he]

/-- **An element is read back by its tag octet.** -/
theorem readTagged_encode {e : Element} (ht : isTag e.tag.octet = true)
    (hl : e.content.length ≤ lengthLimit) (rest : Octets) :
    readTagged e.tag.octet (e.encode ++ rest) = some (e.content, rest) := by
  have h := readLength_encodeLength hl (e.content ++ rest)
  simp [readTagged, readElement, Element.encode, ht, h]

/-- The only element in octets is read back. -/
theorem only_encode {e : Element} (ht : isTag e.tag.octet = true)
    (hl : e.content.length ≤ lengthLimit) : only e.tag.octet e.encode = some e.content := by
  have h := readTagged_encode ht hl []
  rw [List.append_nil] at h
  simp [only, h]

/-- **A number is read back from its integer.** -/
theorem readUnsigned_integer {n : Nat} (hw : Octets.width n < lengthLimit) (rest : Octets) :
    readUnsigned (integer n ++ rest) = some (n, rest) := by
  have hl := length_integerContent_le n
  have h : readTagged 0x02 (integer n ++ rest) = some (integerContent n, rest) :=
    readTagged_encode (e := ⟨Tag.primitive Tag.integer, integerContent n⟩) rfl
      (by simp only; omega) rest
  simp [readUnsigned, h, unsigned?_integerContent]

end Strict

/-! ## 3. The reader of keys to sign or to check with -/

namespace Compact

/-- The greatest length that this reader takes. -/
def lengthLimit : Nat := 0xffff

theorem readLength_encodeLength {n : Nat} (h : n ≤ lengthLimit) (rest : Octets) :
    readLength (encodeLength n ++ rest) = some (n, rest) := by
  by_cases hn : n < 128
  · have hlt := lengthOctet_lt hn
    have hv := toNat_lengthOctet hn
    rw [encodeLength_short hn]
    generalize UInt8.ofNat n = b at hlt hv
    have h1 : b ≠ 0x81 := fun e => by simp [e] at hlt
    have h2 : b ≠ 0x82 := fun e => by simp [e] at hlt
    unfold readLength
    split <;> simp_all
  · have hn' : 128 ≤ n := by omega
    have hw2 : Octets.width n ≤ 2 := Octets.width_le (by rw [lengthLimit] at h; omega)
    have hw0 : 0 < Octets.width n := Octets.width_pos (by omega)
    have hlen := Octets.length_ofNatMin n
    have hval := Octets.toNat_ofNatMin n
    rw [encodeLength_long hn']
    match hd : Octets.ofNatMin n with
    | [] =>
      rw [hd] at hlen
      simp at hlen
      omega
    | [a] =>
      rw [hd] at hlen hval
      have ha : a.toNat = n := by simpa [Octets.toNat] using hval
      have hge : ¬ a < 128 := by
        rw [UInt8.lt_iff_toNat_lt, ha]
        simpa using hn'
      rw [← hlen]
      show (if a < 128 then none else some (a.toNat, rest)) = some (n, rest)
      rw [if_neg hge, ha]
    | [a, b] =>
      rw [hd] at hlen hval
      have ha0 : a ≠ 0 := Octets.head_ofNatMin_ne_zero hd
      have hab : a.toNat * 256 + b.toNat = n := by simpa [Octets.toNat] using hval
      rw [← hlen]
      show (if a = 0 then none else some (a.toNat * 256 + b.toNat, rest)) = some (n, rest)
      rw [if_neg ha0, hab]
    | a :: b :: c :: more =>
      rw [hd] at hlen
      simp only [List.length_cons] at hlen
      omega

/-- **An element is read back by its tag octet.** -/
theorem readTagged_encode {e : Element} (hl : e.content.length ≤ lengthLimit) (rest : Octets) :
    readTagged e.tag.octet (e.encode ++ rest) = some (e.content, rest) := by
  have h := readLength_encodeLength hl (e.content ++ rest)
  simp [readTagged, Element.encode, h]

/-- The only element in octets is read back. -/
theorem only_encode {e : Element} (hl : e.content.length ≤ lengthLimit) :
    only e.tag.octet e.encode = some e.content := by
  have h := readTagged_encode hl []
  rw [List.append_nil] at h
  simp [only, h]

/-- **A number is read back from its integer.** -/
theorem readUnsigned_integer {n : Nat} (hw : Octets.width n < lengthLimit) (rest : Octets) :
    readUnsigned (integer n ++ rest) = some (n, rest) := by
  have hl := length_integerContent_le n
  have h : readTagged 0x02 (integer n ++ rest) = some (integerContent n, rest) :=
    readTagged_encode (e := ⟨Tag.primitive Tag.integer, integerContent n⟩)
      (by simp only; omega) rest
  simp [readUnsigned, h, unsigned?_integerContent]

end Compact

end Der

end RootAuthority
