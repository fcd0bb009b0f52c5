import RootAuthority.Der.Element
import RootAuthority.Proofs.Octets

/-!
# An element is read back as it was written

* `readElement_encode`: an element is read back from its octets, whatever follows them, as long as
  the length of its contents fits 64 bits.
* `content_lt_of_readElement`: and only then. Elements longer than that, whose length field is
  written with too many octets, never read as one element that ends where their octets end.
* `readElement_primitive`, `readElement_composite`: the same for the two shapes in which parts of a
  certificate are written.
-/

namespace RootAuthority.Der

/-! ## 1. Sizes -/

theorem encodeLength_short {n : Nat} (h : n < 128) : encodeLength n = [UInt8.ofNat n] := by
  rw [encodeLength, if_pos h]

theorem encodeLength_long {n : Nat} (h : 128 ≤ n) :
    encodeLength n = UInt8.ofNat (128 + Octets.width n) :: Octets.ofNatMin n := by
  simp [encodeLength, Nat.not_lt.mpr h]

@[simp] theorem Element.length_encode (e : Element) :
    e.encode.length = (encodeLength e.content.length).length + 1 + e.content.length := by
  simp [Element.encode]
  omega

/-- An element has no more octets besides its contents than a tag, a mark and the width of their
    length. -/
theorem length_encode_le {e : Element} {b : Nat} (w : Nat) (h : e.content.length ≤ b)
    (hb : b < 256 ^ w) : e.encode.length ≤ b + w + 2 := by
  have hl : (encodeLength e.content.length).length ≤ w + 1 := by
    unfold encodeLength
    split
    · exact Nat.le_add_left _ _
    · have hw : Octets.width e.content.length ≤ w := Octets.width_le (Nat.lt_of_le_of_lt h hb)
      rw [List.length_cons, Octets.length_ofNatMin]
      exact Nat.succ_le_succ hw
  rw [Element.length_encode]
  omega

/-- The octets of one part are no more than those of all parts. -/
theorem length_le_flatten {parts : List Octets} {p : Octets} (h : p ∈ parts) :
    p.length ≤ parts.flatten.length :=
  (List.sublist_flatten_of_mem h).length_le

/-- A row of non-empty items has at least as many octets as items. -/
theorem count_le_length {α : Type} {encode : α → Octets} : ∀ {items : List α},
    (∀ a ∈ items, encode a ≠ []) → items.length ≤ (items.map encode).flatten.length
  | [], _ => by simp
  | a :: items, h => by
      have ih := count_le_length fun b hb => h b (List.mem_cons_of_mem a hb)
      have ha := List.length_pos_iff.mpr (h a List.mem_cons_self)
      simp only [List.length_cons, List.map_cons, List.flatten_cons, List.length_append]
      omega

/-- **A length of 64 bits counts the octets.** -/
def Fits (bs : Octets) : Prop := bs.length < 2 ^ 64

theorem Fits.of_mem {parts : List Octets} {p : Octets} (h : parts.flatten.length < 2 ^ 64)
    (hp : p ∈ parts) : Fits p :=
  Nat.lt_of_le_of_lt (length_le_flatten hp) h

/-- What fits has contents that fit. -/
theorem Fits.content {e : Element} (h : Fits e.encode) : e.content.length < 2 ^ 64 := by
  have hl := e.length_encode
  rw [Fits] at h
  omega

theorem Fits.primitive_content {number : Nat} {content : Octets}
    (h : Fits (primitive number content)) : content.length < 2 ^ 64 :=
  Fits.content (e := ⟨Tag.primitive number, content⟩) h

theorem Fits.composite_content {number : Nat} {parts : List Octets}
    (h : Fits (composite number parts)) : parts.flatten.length < 2 ^ 64 :=
  Fits.content (e := ⟨Tag.composite number, parts.flatten⟩) h

/-- What fits has parts that fit. -/
theorem Fits.part {number : Nat} {parts : List Octets} {p : Octets}
    (h : Fits (composite number parts)) (hp : p ∈ parts) : Fits p :=
  Fits.of_mem h.composite_content hp

theorem Fits.sequence_part {parts : List Octets} {p : Octets} (h : Fits (sequence parts))
    (hp : p ∈ parts) : Fits p :=
  Fits.part h hp

/-! ## 2. Tags and length fields -/

theorem Tag.toNat_octet (t : Tag) (h : t.number < 31) :
    t.octet.toNat = t.cls.code * 64 + (if t.constructed then 32 else 0) + t.number := by
  have hc : t.cls.code ≤ 3 := by cases t.cls <;> decide
  rw [Tag.octet, UInt8.toNat_ofNat']
  refine Nat.mod_eq_of_lt ?_
  split <;> omega

theorem TagClass.ofCode_code (c : TagClass) : TagClass.ofCode c.code = c := by
  cases c <;> rfl

/-- **A tag with a number below 31 is read back.** -/
theorem readTag_octet (t : Tag) (h : t.number < 31) (bs : Octets) :
    readTag (t.octet :: bs) = some (t, bs) := by
  have hv := t.toNat_octet h
  obtain ⟨cls, con, number⟩ := t
  simp only at h hv
  have hcls : (Tag.octet ⟨cls, con, number⟩).toNat / 64 = cls.code := by
    rw [hv]
    split <;> omega
  have hcon : decide ((Tag.octet ⟨cls, con, number⟩).toNat / 32 % 2 = 1) = con := by
    rw [hv]
    cases con <;> simp <;> omega
  have hnum : (Tag.octet ⟨cls, con, number⟩).toNat % 32 = number := by
    rw [hv]
    split <;> omega
  have hne : number ≠ 31 := by omega
  simp only [readTag, hcls, hcon, hnum, hne, if_false, TagClass.ofCode_code]

/-- The only octet of a length field in the short form. -/
theorem toNat_lengthOctet {n : Nat} (h : n < 128) : (UInt8.ofNat n).toNat = n := by
  rw [UInt8.toNat_ofNat']
  omega

theorem lengthOctet_lt {n : Nat} (h : n < 128) : UInt8.ofNat n < 128 :=
  UInt8.lt_iff_toNat_lt.mpr (by rw [toNat_lengthOctet h]; exact h)

/-- The first octet of a length field in the long form. -/
theorem toNat_lengthMark {w : Nat} (h : w < 128) : (UInt8.ofNat (128 + w)).toNat = 128 + w := by
  rw [UInt8.toNat_ofNat']
  omega

theorem lengthMark_not_lt {w : Nat} (h : w < 128) : ¬ UInt8.ofNat (128 + w) < 128 := by
  rw [UInt8.lt_iff_toNat_lt, toNat_lengthMark h]
  simp

/-- A long length field is read as its number, if that fits 64 bits. -/
theorem readLength_long {n : Nat} (hn : 128 ≤ n) (hw : Octets.width n < 127) (rest : Octets) :
    readLength (encodeLength n ++ rest) =
      if n < 2 ^ 64 then some (.definite n, rest) else none := by
  have hw0 : 0 < Octets.width n := Octets.width_pos (by omega)
  have hv := toNat_lengthMark (w := Octets.width n) (by omega)
  have h1 := lengthMark_not_lt (w := Octets.width n) (by omega)
  have hne : ∀ b : UInt8, b.toNat ≠ 128 + Octets.width n →
      UInt8.ofNat (128 + Octets.width n) ≠ b := fun b hb e => by
    rw [← hv, e] at hb
    exact hb rfl
  have h2 := hne 128 (by simp; omega)
  have h3 := hne 255 (by simp; omega)
  simp only [encodeLength_long hn, List.cons_append, readLength, h1, h2, h3, if_false, hv,
    Nat.add_sub_cancel_left, Octets.splitAt?_ofNatMin]
  simp

/-- **A length below `2 ^ 64` is read back.** -/
theorem readLength_encodeLength {n : Nat} (h : n < 2 ^ 64) (rest : Octets) :
    readLength (encodeLength n ++ rest) = some (.definite n, rest) := by
  by_cases hn : n < 128
  · simp [encodeLength_short hn, readLength, lengthOctet_lt hn, toNat_lengthOctet hn]
  · have hw8 : Octets.width n ≤ 8 := Octets.width_le h
    rw [readLength_long (by omega) (by omega), if_pos h]

/-! ## 3. Elements -/

theorem readTag_encode {e : Element} (ht : e.tag.number < 31) (rest : Octets) :
    readTag (e.encode ++ rest)
      = some (e.tag, encodeLength e.content.length ++ (e.content ++ rest)) := by
  rw [← readTag_octet e.tag ht, Element.encode]
  simp

/-- **An element is read back from its octets.** -/
theorem readElement_encode {e : Element} (ht : e.tag.number < 31) (hl : e.content.length < 2 ^ 64)
    (rest : Octets) : readElement (e.encode ++ rest) = some (e, rest) := by
  simp [readElement, readTag_encode ht, readLength_encodeLength hl]

/-- Where the contents are measured, looking for an end marker makes no difference. -/
theorem readElementIndefinite_encode {e : Element} (ht : e.tag.number < 31)
    (hl : e.content.length < 2 ^ 64) (rest : Octets) :
    readElementIndefinite (e.encode ++ rest) = some (e, rest) := by
  simp [readElementIndefinite, readTag_encode ht, readLength_encodeLength hl]

theorem readElement_primitive {number : Nat} {content : Octets} (ht : number < 31)
    (hl : Fits (primitive number content)) (rest : Octets) :
    readElement (primitive number content ++ rest)
      = some (⟨Tag.primitive number, content⟩, rest) :=
  readElement_encode (e := ⟨Tag.primitive number, content⟩) ht hl.primitive_content rest

theorem readElement_composite {number : Nat} {parts : List Octets} (ht : number < 31)
    (hl : Fits (composite number parts)) (rest : Octets) :
    readElement (composite number parts ++ rest)
      = some (⟨Tag.composite number, parts.flatten⟩, rest) :=
  readElement_encode (e := ⟨Tag.composite number, parts.flatten⟩) ht hl.composite_content rest

theorem readElement_sequence {parts : List Octets} (hl : Fits (sequence parts)) (rest : Octets) :
    readElement (sequence parts ++ rest)
      = some (⟨Tag.composite Tag.sequence, parts.flatten⟩, rest) :=
  readElement_composite (by decide) hl rest

theorem readElement_context {constructed : Bool} {number : Nat} {content : Octets}
    (ht : number < 31) (hl : Fits (Element.encode ⟨Tag.context constructed number, content⟩))
    (rest : Octets) :
    readElement (Element.encode ⟨Tag.context constructed number, content⟩ ++ rest)
      = some (⟨Tag.context constructed number, content⟩, rest) :=
  readElement_encode (e := ⟨Tag.context constructed number, content⟩) ht hl.content rest

theorem readElementIndefinite_primitive {number : Nat} {content : Octets} (ht : number < 31)
    (hl : Fits (primitive number content)) (rest : Octets) :
    readElementIndefinite (primitive number content ++ rest)
      = some (⟨Tag.primitive number, content⟩, rest) :=
  readElementIndefinite_encode (e := ⟨Tag.primitive number, content⟩) ht hl.primitive_content rest

/-! ## 4. What reading tells about the octets -/

theorem readTagNumber_length : ∀ {k n m : Nat} {bs rest : Octets},
    readTagNumber k n bs = some (m, rest) → bs.length ≤ k + rest.length
  | 0, _, _, _, _, h => by simp [readTagNumber] at h
  | _ + 1, _, _, [], _, h => by simp [readTagNumber] at h
  | k + 1, n, m, b :: bs, rest, h => by
      unfold readTagNumber at h
      split at h
      · simp only [Option.some.injEq, Prod.mk.injEq] at h
        obtain ⟨-, rfl⟩ := h
        simp only [List.length_cons]
        omega
      · have := readTagNumber_length h
        simp only [List.length_cons]
        omega

/-- A tag has at most six octets. -/
theorem readTag_length {bs rest : Octets} {t : Tag} (h : readTag bs = some (t, rest)) :
    bs.length ≤ 6 + rest.length := by
  cases bs with
  | nil => simp [readTag] at h
  | cons b bs =>
    simp only [readTag] at h
    split at h
    · simp only [Option.map_eq_some_iff, Prod.mk.injEq] at h
      obtain ⟨⟨n, r⟩, hr, -, rfl⟩ := h
      have := readTagNumber_length hr
      simp only [List.length_cons]
      omega
    · simp only [Option.some.injEq, Prod.mk.injEq] at h
      obtain ⟨-, rfl⟩ := h
      simp only [List.length_cons]
      omega

/-- A length field has at most 127 octets, and the length fits 64 bits. -/
theorem readLength_length {bs rest : Octets} {n : Nat}
    (h : readLength bs = some (.definite n, rest)) :
    bs.length ≤ 127 + rest.length ∧ n < 2 ^ 64 := by
  cases bs with
  | nil => simp [readLength] at h
  | cons b bs =>
    have hb := b.toNat_lt
    simp only [readLength] at h
    split at h
    · simp only [Option.some.injEq, Prod.mk.injEq, LengthField.definite.injEq] at h
      obtain ⟨rfl, rfl⟩ := h
      simp only [List.length_cons]
      omega
    · split at h
      · simp at h
      · split at h
        · simp at h
        · rename_i h255
          have hb' : b.toNat ≠ 255 := fun e => h255 (UInt8.toNat_inj.mp e)
          simp only [Option.bind_eq_bind, Option.bind_eq_some_iff] at h
          obtain ⟨⟨field, r⟩, hs, h⟩ := h
          obtain ⟨rfl, hf⟩ := Octets.splitAt?_eq_some hs
          dsimp only at h
          split at h
          · simp at h
            obtain ⟨rfl, rfl⟩ := h
            simp only [List.length_cons, List.length_append]
            omega
          · simp at h

/-- **What is read as one element is not longer than an element can be.** -/
theorem readElement_length {bs rest : Octets} {e : Element}
    (h : readElement bs = some (e, rest)) :
    bs.length < 2 ^ 64 + 133 + rest.length := by
  simp only [readElement, Option.bind_eq_bind, Option.bind_eq_some_iff] at h
  obtain ⟨⟨tag, bs₁⟩, ht, ⟨field, bs₂⟩, hl, h⟩ := h
  have h1 := readTag_length ht
  cases field with
  | indefinite => simp at h
  | definite n =>
    have h2 := readLength_length hl
    simp only [Option.bind_eq_some_iff] at h
    obtain ⟨⟨content, r⟩, hs, h⟩ := h
    simp at h
    obtain ⟨rfl, rfl⟩ := h
    obtain ⟨rfl, hc⟩ := Octets.splitAt?_eq_some hs
    simp only [List.length_append] at h2
    omega

/-- **Contents that do not fit 64 bits are never read as one element** that ends where the octets
    end. -/
theorem content_lt_of_readElement {e e' : Element} (ht : e.tag.number < 31)
    (h : readElement e.encode = some (e', [])) : e.content.length < 2 ^ 64 := by
  refine Nat.lt_of_not_le fun hge => ?_
  have hlen := readElement_length h
  rw [Element.length_encode] at hlen
  simp only [List.length_nil] at hlen
  have hw : Octets.width e.content.length ≤ 9 := Octets.width_le (by omega)
  have h1 : readTag e.encode = some (e.tag, encodeLength e.content.length ++ e.content) :=
    readTag_octet e.tag ht _
  have h2 := readLength_long (n := e.content.length) (by omega) (by omega) e.content
  rw [if_neg (by omega)] at h2
  simp [readElement, h1, h2] at h

end RootAuthority.Der
