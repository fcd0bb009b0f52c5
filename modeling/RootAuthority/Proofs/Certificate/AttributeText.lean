import RootAuthority.Certificate.Name
import RootAuthority.Proofs.Der.ObjectId
import RootAuthority.Proofs.Octets

/-!
# What is shown of an attribute

A kind is shown by a short name or by its arcs, and a value by a text that depends on its tag.

* `Name.kindText_injective`: two kinds that were written and are shown alike are the same.
* `Name.valueText?_injective`: two values with the same tag that are shown alike are the same. This
  holds for texts in both encodings and for the hexadecimal digits of everything else; only 16-bit
  texts with an odd octet at the end are shown like others.

A plain attribute (`Attribute.IsPlain`) is one that can be shown, without an equals sign in its
value. With its tag, it is known by what is shown of it (`Attribute.eq_of_field`).
-/

namespace RootAuthority

open Der

/-! ## 1. Texts in octets -/

namespace Octets

/-- Octets are read as a text exactly if they are its octets. -/
theorem toText?_eq_some_iff {bs : Octets} {t : String} : bs.toText? = some t ↔ bs = ofText t := by
  constructor
  · intro h
    rw [toText?, String.fromUTF8?] at h
    split at h
    · next hvalid =>
      obtain rfl := Option.some.inj h
      rfl
    · cases h
  · rintro rfl
    exact toText?_ofText t

/-- The 16-bit units of a character. -/
def units16OfChar (c : Char) : List Nat :=
  if c.toNat < 0x10000 then [c.toNat]
  else [0xd800 + (c.toNat - 0x10000) / 0x400, 0xdc00 + (c.toNat - 0x10000) % 0x400]

theorem toNat_ofNat_of_valid {n : Nat} (h : n.isValidChar) : (Char.ofNat n).toNat = n := by
  rw [Char.ofNat, dif_pos h]
  rfl

theorem units16OfChar_plain {u : Nat} (h : u < 0xd800 ∨ 0xe000 ≤ u) (hu : u < 0x10000) :
    units16OfChar (Char.ofNat u) = [u] := by
  have hvalid : u.isValidChar := by
    unfold Nat.isValidChar
    omega
  rw [units16OfChar, toNat_ofNat_of_valid hvalid, if_pos hu]

theorem units16OfChar_pair {u v : Nat} (hu : 0xd800 ≤ u) (hu' : u < 0xdc00) (hv : 0xdc00 ≤ v)
    (hv' : v < 0xe000) :
    units16OfChar (Char.ofNat (0x10000 + (u - 0xd800) * 0x400 + (v - 0xdc00))) = [u, v] := by
  have hvalid : (0x10000 + (u - 0xd800) * 0x400 + (v - 0xdc00)).isValidChar := by
    unfold Nat.isValidChar
    omega
  have hfirst :
      0xd800 + (0x10000 + (u - 0xd800) * 0x400 + (v - 0xdc00) - 0x10000) / 0x400 = u := by omega
  have hsecond :
      0xdc00 + (0x10000 + (u - 0xd800) * 0x400 + (v - 0xdc00) - 0x10000) % 0x400 = v := by omega
  rw [units16OfChar, toNat_ofNat_of_valid hvalid, if_neg (by omega), hfirst, hsecond]

/-- **Units that are read as characters** are the units of these characters. -/
theorem units16OfChar_charsOfUnits16? : ∀ {us : List Nat} {cs : List Char},
    (∀ u ∈ us, u < 0x10000) → charsOfUnits16? us = some cs → cs.flatMap units16OfChar = us := by
  intro us
  fun_induction charsOfUnits16? us with
  | case1 =>
    intro cs _ h
    obtain rfl := Option.some.inj h
    rfl
  | case2 u rest hplain ih =>
    intro cs hus h
    obtain ⟨hu, hrest⟩ := List.forall_mem_cons.mp hus
    obtain ⟨cs, hcs, rfl⟩ := Option.map_eq_some_iff.mp h
    rw [List.flatMap_cons, units16OfChar_plain hplain hu, ih hrest hcs]
    rfl
  | case3 => nofun
  | case4 => nofun
  | case5 u hplain hhigh v rest hlow ih =>
    intro cs hus h
    obtain ⟨-, hus⟩ := List.forall_mem_cons.mp hus
    obtain ⟨-, hrest⟩ := List.forall_mem_cons.mp hus
    obtain ⟨cs, hcs, rfl⟩ := Option.map_eq_some_iff.mp h
    rw [List.flatMap_cons, units16OfChar_pair (by omega) (by omega) hlow.1 hlow.2, ih hrest hcs]
    rfl
  | case6 => nofun

theorem units16_lt : ∀ {bs : Octets} {u : Nat}, u ∈ units16 bs → u < 0x10000
  | [], _, h => by cases h
  | [b], u, h => by
      rw [units16, List.mem_singleton] at h
      have := b.toNat_lt
      omega
  | high :: low :: rest, u, h => by
      rcases List.mem_cons.mp h with rfl | h
      · have := high.toNat_lt
        have := low.toNat_lt
        omega
      · exact units16_lt h

/-- An even number of octets is known by its units. -/
theorem units16_injective : ∀ {bs bs' : Octets}, bs.length % 2 = 0 → bs'.length % 2 = 0 →
    units16 bs = units16 bs' → bs = bs'
  | [], [], _, _, _ => rfl
  | [], high :: low :: rest, _, _, h => by cases h
  | high :: low :: rest, [], _, _, h => by cases h
  | [b], _, h, _, _ => by simp at h
  | _, [b], _, h, _ => by simp at h
  | high :: low :: rest, high' :: low' :: rest', h, h', heq => by
      simp only [units16, List.cons.injEq] at heq
      have hunit := heq.1
      have := low.toNat_lt
      have := low'.toNat_lt
      have hhigh : high = high' := UInt8.toNat_inj.mp (by omega)
      have hlow : low = low' := UInt8.toNat_inj.mp (by omega)
      have hrest : rest = rest' :=
        units16_injective (by simp at h; omega) (by simp at h'; omega) heq.2
      rw [hhigh, hlow, hrest]

/-- **An even number of octets that is read as a 16-bit text** is known by it. -/
theorem utf16Text?_injective {bs bs' : Octets} {t : String} (hlength : bs.length % 2 = 0)
    (hlength' : bs'.length % 2 = 0) (h : bs.utf16Text? = some t) (h' : bs'.utf16Text? = some t) :
    bs = bs' := by
  obtain ⟨cs, hcs, rfl⟩ := Option.map_eq_some_iff.mp h
  obtain ⟨cs', hcs', hofList⟩ := Option.map_eq_some_iff.mp h'
  obtain rfl := String.ofList_injective hofList
  refine units16_injective hlength hlength' ?_
  rw [← units16OfChar_charsOfUnits16? (fun u => units16_lt) hcs,
    units16OfChar_charsOfUnits16? (fun u => units16_lt) hcs']

end Octets

/-! ## 2. Values -/

namespace Name

theorem hexValue?_toUpper : ∀ n < 16,
    Octets.hexValue? (Octets.hexDigit n).toUpper = some n := by
  decide

/-- The digits of octets spell them. -/
theorem ofHexDigits?_upperHex : ∀ bs : Octets,
    Octets.ofHexDigits? (bs.flatMap fun b => (upperHex b).toList) = some bs
  | [] => rfl
  | b :: bs => by
      have ih := ofHexDigits?_upperHex bs
      have := b.toNat_lt
      have hdigits : (upperHex b).toList = [(Octets.hexDigit (b.toNat / 16)).toUpper,
          (Octets.hexDigit (b.toNat % 16)).toUpper] := by
        simp [upperHex, Octets.toHex]
      rw [List.flatMap_cons, hdigits, List.cons_append, List.cons_append, List.nil_append,
        Octets.ofHexDigits?, hexValue?_toUpper _ (by omega), hexValue?_toUpper _ (by omega), ih]
      simp only [Option.bind_eq_bind, Option.bind_some, Nat.div_add_mod']
      simp

/-- What is shown of a value that is not a text. -/
theorem toList_join_upperHex (bs : Octets) :
    (String.join (bs.map upperHex)).toList = bs.flatMap fun b => (upperHex b).toList := by
  rw [String.toList_join, List.flatMap_map]

theorem join_upperHex_injective {bs bs' : Octets}
    (h : String.join (bs.map upperHex) = String.join (bs'.map upperHex)) : bs = bs' := by
  have hdigits := congrArg (fun s => Octets.ofHexDigits? s.toList) h
  simp only [toList_join_upperHex, ofHexDigits?_upperHex] at hdigits
  exact Option.some.inj hdigits

/-- A text of 16-bit units has no odd octet at its end. -/
def IsWhole (value : Element) : Prop :=
  value.tag.number = Tag.bmpString → value.content.length % 2 = 0

/-- **Values with the same tag that are shown alike are the same.** -/
theorem valueText?_injective {value value' : Element} {t : String}
    (htag : value.tag = value'.tag) (hwhole : IsWhole value) (hwhole' : IsWhole value')
    (h : valueText? value = some t) (h' : valueText? value' = some t) : value = value' := by
  have hcontent : value.content = value'.content := by
    rw [valueText?] at h h'
    rw [← htag] at h'
    by_cases htext : textTags.contains value.tag.number = true
    · rw [if_pos htext] at h h'
      rw [Octets.toText?_eq_some_iff.mp h, Octets.toText?_eq_some_iff.mp h']
    · rw [if_neg htext] at h h'
      by_cases hbmp : value.tag.number = Tag.bmpString
      · rw [if_pos hbmp] at h h'
        exact Octets.utf16Text?_injective (hwhole hbmp) (hwhole' (htag ▸ hbmp)) h h'
      · rw [if_neg hbmp] at h h'
        exact join_upperHex_injective (Option.some.inj (h.trans h'.symm))
  cases value
  cases value'
  simp_all

end Name

/-! ## 3. Kinds -/

namespace Der.ObjectId

/-- Identifiers that are made of arcs were written. -/
theorem isWritten_ofArcs {a b : Nat} {rest : List Nat} (h : ∀ n ∈ rest, n < 2 ^ 63) :
    IsWritten (ofArcs (a :: b :: rest)) :=
  ⟨UInt8.ofNat (a * 40 + b), rest, h, rfl⟩

end Der.ObjectId

namespace Name

theorem mem_shortNames {kind : ObjectId} {short : String}
    (h : shortNames.lookup kind = some short) : (kind, short) ∈ shortNames := by
  obtain ⟨front, back, hlist, -⟩ := List.lookup_eq_some_iff.mp h
  rw [hlist]
  exact List.mem_append_right front List.mem_cons_self

/-- A short name has none of the characters that set off kinds and arcs, and belongs to one kind. -/
theorem shortNames_distinct : ∀ p ∈ shortNames,
    ('=' ∉ p.2.toList ∧ ' ' ∉ p.2.toList ∧ '(' ∉ p.2.toList) ∧
      ∀ q ∈ shortNames, p.2 = q.2 → p.1 = q.1 := by
  decide +kernel

/-- **Kinds that were written and are shown alike are the same.** -/
theorem kindText_injective {kind kind' : ObjectId} (hkind : ObjectId.IsWritten kind)
    (hkind' : ObjectId.IsWritten kind') (h : kindText kind = kindText kind') : kind = kind' := by
  -- a parenthesis tells the arcs from all short names
  have hparenthesis {kind kind' : ObjectId} {short : String}
      (hshort : shortNames.lookup kind = some short) : short ≠ "OID(" ++ kind'.display ++ ")" := by
    intro harcs
    refine (shortNames_distinct _ (mem_shortNames hshort)).1.2.2 ?_
    simp [harcs]
  unfold kindText at h
  split at h <;> split at h
  · next hshort _ _ hshort' =>
    exact (shortNames_distinct _ (mem_shortNames hshort)).2 _ (mem_shortNames hshort') h
  · next hshort _ _ => exact (hparenthesis hshort h).elim
  · next _ _ _ hshort => exact (hparenthesis hshort h.symm).elim
  · refine ObjectId.display_injective hkind hkind' (String.toList_inj.mp ?_)
    simpa using congrArg String.toList h

/-- The text of a kind holds neither an equals sign nor a blank. -/
theorem not_mem_kindText {kind : ObjectId} (hkind : ObjectId.IsWritten kind) :
    '=' ∉ (kindText kind).toList ∧ ' ' ∉ (kindText kind).toList := by
  unfold kindText
  split
  · next hshort =>
    obtain ⟨⟨hequals, hblank, -⟩, -⟩ := shortNames_distinct _ (mem_shortNames hshort)
    exact ⟨hequals, hblank⟩
  · have hother {c : Char} (hdot : c ≠ '.') (hdigit : c.isDigit = false) :
        c ∉ kind.display.toList := by
      intro h
      rcases ObjectId.mem_display hkind h with h | h
      · exact hdot h
      · exact absurd h (Bool.eq_false_iff.mp hdigit)
    have hequals : '=' ∉ kind.display.toList := hother (by decide) (by decide)
    have hblank : ' ' ∉ kind.display.toList := hother (by decide) (by decide)
    simp [hequals, hblank]

end Name

/-! ## 4. Attributes -/

/-- What is shown of an attribute: its kind and the text of its value. -/
@[ext]
structure Field where
  kind : ObjectId
  text : String
deriving DecidableEq

namespace Field

/-- The kind is an identifier that was written, and the text has no equals sign. -/
structure IsPlain (f : Field) : Prop where
  written : ObjectId.IsWritten f.kind
  text : '=' ∉ f.text.toList

/-- The characters of the kind. -/
def kindChars (f : Field) : List Char := (Name.kindText f.kind).toList

/-- The characters of the whole. -/
def chars (f : Field) : List Char := f.kindChars ++ '=' :: f.text.toList

/-- **A plain field is known by its characters.** -/
theorem IsPlain.ext {f f' : Field} (h : f.IsPlain) (h' : f'.IsPlain)
    (hkind : f.kindChars = f'.kindChars) (htext : f.text.toList = f'.text.toList) : f = f' := by
  apply Field.ext
  · exact Name.kindText_injective h.written h'.written (String.toList_inj.mp hkind)
  · exact String.toList_inj.mp htext

end Field

namespace Attribute

/-- What is shown of an attribute, if its value can be shown. -/
def field (a : Attribute) : Field := ⟨a.kind, (Name.valueText? a.value).getD ""⟩

/-- **A plain attribute** can be shown, and what is shown of it is plain. -/
structure IsPlain (a : Attribute) : Prop where
  readable : (Name.valueText? a.value).isSome
  whole : Name.IsWhole a.value
  field : a.field.IsPlain

theorem IsPlain.valueText? {a : Attribute} (h : a.IsPlain) :
    Name.valueText? a.value = some a.field.text := by
  obtain ⟨t, ht⟩ := Option.isSome_iff_exists.mp h.readable
  rw [ht, Attribute.field, ht]
  rfl

/-- **With its tag, a plain attribute** is known by what is shown of it. -/
theorem eq_of_field {a a' : Attribute} (h : a.IsPlain) (h' : a'.IsPlain)
    (htag : a.value.tag = a'.value.tag) (hfield : a.field = a'.field) : a = a' := by
  have hkind : a.kind = a'.kind := congrArg Field.kind hfield
  have hvalue : a.value = a'.value := by
    refine Name.valueText?_injective htag h.whole h'.whole h.valueText? ?_
    rw [h'.valueText?, hfield]
  cases a
  cases a'
  simp_all

end Attribute

end RootAuthority
