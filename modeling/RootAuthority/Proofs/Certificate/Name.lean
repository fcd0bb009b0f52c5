import RootAuthority.Certificate.Name
import RootAuthority.Proofs.Der.Element

/-!
# Names are read back as they are written

A name that has no empty level, and whose values have tags with a number below 31, is read back from
its octets (`Name.read_encode`), as long as their count fits 64 bits.
-/

namespace RootAuthority

open Der

/-! ## 1. Rows of items -/

/-- Items are read up to the end of the octets, which no item takes for one of its kind. -/
theorem Name.readWhile_encode {α : Type} {item : Octets → Option (α × Octets)}
    {encode : α → Octets} (hnil : item [] = none) : ∀ {items : List α} {fuel : Nat},
    (∀ a ∈ items, ∀ rest, item (encode a ++ rest) = some (a, rest)) → items.length ≤ fuel →
    Name.readWhile item fuel (items.map encode).flatten = items
  | [], 0, _, _ => rfl
  | [], fuel + 1, _, _ => by simp [Name.readWhile, hnil]
  | a :: items, 0, _, hf => by simp at hf
  | a :: items, fuel + 1, h, hf => by
      have hlength : items.length ≤ fuel := by simpa using hf
      have ih := readWhile_encode hnil (fun b hb => h b (List.mem_cons_of_mem a hb)) hlength
      have ha := h a List.mem_cons_self (items.map encode).flatten
      simp [Name.readWhile, ha, ih]

/-! ## 2. Attributes, levels and names -/

/-- **An attribute is read back.** -/
theorem Attribute.read_encode {a : Attribute} (ht : a.value.tag.number < 31)
    (hl : Fits a.encode) (rest : Octets) : Attribute.read (a.encode ++ rest) = some (a, rest) := by
  rw [Attribute.encode] at hl ⊢
  have h1 := readElement_sequence hl rest
  have hkind : Fits (primitive Tag.objectId a.kind) := hl.sequence_part (by simp)
  have h2 := readElement_primitive (by decide) hkind a.value.encode
  have h3 := readElement_encode ht (Fits.content (hl.sequence_part (by simp))) []
  rw [List.append_nil] at h3
  simp [Attribute.read, h1, h2, h3, Tag.composite, Tag.primitive]

theorem Attribute.encode_ne_nil (a : Attribute) : a.encode ≠ [] := by
  simp [Attribute.encode, Der.sequence, composite, Element.encode]

namespace Name

/-- The octets of one level. -/
def encodeLevel (level : RelativeName) : Octets := composite Tag.set (level.map Attribute.encode)

theorem encodeLevel_ne_nil (level : RelativeName) : encodeLevel level ≠ [] := by
  simp [encodeLevel, composite, Element.encode]

/-- **A level with at least one attribute is read back.** -/
theorem readRelative_encode {level : RelativeName} (hne : level ≠ [])
    (ht : ∀ a ∈ level, a.value.tag.number < 31) (hl : Fits (encodeLevel level)) (rest : Octets) :
    readRelative (encodeLevel level ++ rest) = some (level, rest) := by
  have h1 := readElement_composite (show Tag.set < 31 by decide) hl rest
  have h2 : readWhile Attribute.read (level.map Attribute.encode).flatten.length
      (level.map Attribute.encode).flatten = level :=
    readWhile_encode rfl
      (fun a ha => Attribute.read_encode (ht a ha) (hl.part (List.mem_map_of_mem ha)))
      (count_le_length fun a _ => a.encode_ne_nil)
  obtain ⟨a, more, rfl⟩ := List.exists_cons_of_ne_nil hne
  rw [encodeLevel]
  simp only [readRelative, h1, Option.bind_eq_bind, Option.bind_some, h2]
  simp [Tag.composite]

/-- **A name is read back**, if it has no empty level. -/
theorem read_encode {n : Name} (hne : ∀ level ∈ n, level ≠ [])
    (ht : ∀ level ∈ n, ∀ a ∈ level, a.value.tag.number < 31) (hl : Fits n.encode)
    (rest : Octets) : Name.read (n.encode ++ rest) = some (n, rest) := by
  have h1 := readElement_sequence hl rest
  have h2 : readWhile readRelative (n.map encodeLevel).flatten.length
      (n.map encodeLevel).flatten = n :=
    readWhile_encode rfl
      (fun level h => readRelative_encode (hne level h) (ht level h)
        (hl.sequence_part (List.mem_map_of_mem h)))
      (count_le_length fun level _ => encodeLevel_ne_nil level)
  rw [Name.encode]
  simp only [Name.read, h1, Option.bind_eq_bind, Option.bind_some]
  show (if Tag.sequence ≠ Tag.sequence then none
    else some (readWhile readRelative (n.map encodeLevel).flatten.length
      (n.map encodeLevel).flatten, rest)) = some (n, rest)
  rw [h2]
  simp

end Name

end RootAuthority
