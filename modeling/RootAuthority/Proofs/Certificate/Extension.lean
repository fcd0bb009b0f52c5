import RootAuthority.Certificate.Extension
import RootAuthority.Certificate.Template
import RootAuthority.Proofs.Certificate.Name

/-!
# The extensions of a root certificate are read back as they are written

* `Extension.readAll_encode`: a row of items up to the end of the octets.
* `Extension.read_extension`: one extension, marked as critical or not.
* `Extension.readAll_extensions`: all extensions of a template, in order; what they say together
  is the template's key identifier (`Extension.subjectKeyId?_extensions`), its DNS names
  (`Extension.allDnsNames_extensions`) and the mark of an authority
  (`Extension.marksAuthority_extensions`).
-/

namespace RootAuthority

open Der

namespace Extension

/-! ## 1. One extension -/

/-- **Items are read up to the end of the octets.** -/
theorem readAll_encode {α β : Type} {item : Octets → Option (α × Octets)} {encode : β → Octets}
    {value : β → α} : ∀ {items : List β} {fuel : Nat}, (∀ b ∈ items, encode b ≠ []) →
    (∀ b ∈ items, ∀ rest, item (encode b ++ rest) = some (value b, rest)) →
    items.length ≤ fuel →
    readAll item fuel (items.map encode).flatten = some (items.map value)
  | [], fuel, _, _, _ => by cases fuel <;> rfl
  | b :: items, 0, _, _, hf => by simp at hf
  | b :: items, fuel + 1, hne, h, hf => by
      have hlength : items.length ≤ fuel := by simpa using hf
      have ih := readAll_encode (fun c hc => hne c (List.mem_cons_of_mem b hc))
        (fun c hc => h c (List.mem_cons_of_mem b hc)) hlength
      have hb := h b List.mem_cons_self (items.map encode).flatten
      obtain ⟨o, os, ho⟩ := List.exists_cons_of_ne_nil (hne b List.mem_cons_self)
      rw [ho] at hb
      simp only [List.map_cons, List.flatten_cons, ho]
      simp only [List.cons_append] at hb ⊢
      simp [readAll, hb, ih]

theorem skipMark_mark (rest : Octets) :
    skipMark (primitive Tag.boolean [0xff] ++ rest) = rest := by
  have hfits : Fits (primitive Tag.boolean [0xff]) := show _ < 2 ^ 64 by decide
  have h := readElementIndefinite_primitive (by decide) hfits rest
  simp [skipMark, h, Tag.primitive]

theorem skipMark_value {value : Octets} (hl : Fits (primitive Tag.octetString value)) :
    skipMark (primitive Tag.octetString value) = primitive Tag.octetString value := by
  have h := readElementIndefinite_primitive (by decide) hl []
  rw [List.append_nil] at h
  simp only [skipMark, h]
  simp [Tag.primitive, Tag.octetString, Tag.boolean]

theorem extension_plain (kind : ObjectId) (value : Octets) :
    Template.extension kind false value
      = Der.sequence [primitive Tag.objectId kind, primitive Tag.octetString value] := rfl

theorem extension_critical (kind : ObjectId) (value : Octets) :
    Template.extension kind true value = Der.sequence [primitive Tag.objectId kind,
      primitive Tag.boolean [0xff], primitive Tag.octetString value] := rfl

/-- **An extension is read back**, whether it is marked as critical or not. -/
theorem read_extension {kind : ObjectId} {critical : Bool} {value : Octets}
    (hl : Fits (Template.extension kind critical value)) (rest : Octets) :
    read (Template.extension kind critical value ++ rest) = some (⟨kind, value⟩, rest) := by
  have hk : Fits (primitive Tag.objectId kind) := hl.sequence_part (by simp)
  have hv : Fits (primitive Tag.octetString value) := hl.sequence_part (by simp)
  have h3 := readElement_primitive (by decide) hv []
  rw [List.append_nil] at h3
  cases critical with
  | false =>
    rw [extension_plain] at hl ⊢
    have h1 := readElement_sequence hl rest
    have h2 := readElement_primitive (by decide) hk (primitive Tag.octetString value)
    simp [read, h1, h2, h3, skipMark_value hv, Tag.composite, Tag.primitive]
  | true =>
    rw [extension_critical] at hl ⊢
    have h1 := readElement_sequence hl rest
    have h2 := readElement_primitive (by decide) hk
      (primitive Tag.boolean [0xff] ++ primitive Tag.octetString value)
    simp [read, h1, h2, h3, skipMark_mark, Tag.composite, Tag.primitive]

/-! ## 2. The values of extensions -/

theorem keyId?_primitive {id : Octets} (hl : Fits (primitive Tag.octetString id)) :
    keyId? (primitive Tag.octetString id) = some id := by
  have h := readElement_primitive (by decide) hl []
  rw [List.append_nil] at h
  simp [keyId?, h, Tag.primitive]

theorem readGeneralName_dnsName {name : String} (hl : Fits (Template.dnsName name))
    (rest : Octets) :
    readGeneralName (Template.dnsName name ++ rest) = some (.dns name, rest) := by
  have h := readElement_context (by decide) hl rest
  simp only [readGeneralName, Template.dnsName, h, Option.bind_eq_bind, Option.bind_some]
  simp [Tag.context]

/-- **DNS names are read back** from the value that lists them. -/
theorem generalNames?_dnsNames {names : List String}
    (hl : Fits (Der.sequence (names.map Template.dnsName))) :
    generalNames? (Der.sequence (names.map Template.dnsName)) = some (names.map .dns) := by
  have hne : ∀ name ∈ names, Template.dnsName name ≠ [] := fun name _ => by
    simp [Template.dnsName, Element.encode]
  have h1 := readElement_sequence hl []
  have h2 : readAll readGeneralName (names.map Template.dnsName).flatten.length
      (names.map Template.dnsName).flatten = some (names.map .dns) :=
    readAll_encode hne
      (fun name hm => readGeneralName_dnsName (hl.sequence_part (List.mem_map_of_mem hm)))
      (count_le_length hne)
  rw [List.append_nil] at h1
  simp only [generalNames?, h1, Option.bind_eq_bind, Option.bind_some, h2]
  simp [Tag.composite]

theorem authorityMark?_marked :
    authorityMark? (Der.sequence [primitive Tag.boolean [0xff]]) = some true := by
  decide

/-! ## 3. All extensions of a template -/

end Extension

/-- What the extensions of a template hold, as kind, mark and value. -/
def Template.extensionParts (t : Template) : List (ObjectId × Bool × Octets) :=
  (if t.identity.dnsNames.isEmpty then []
    else [(ObjectId.subjectAlternativeName, false,
      Der.sequence (t.identity.dnsNames.map Template.dnsName))]) ++
  [(ObjectId.keyUsage, true, Template.keyUses),
   (ObjectId.extendedKeyUsage, false,
     Der.sequence [primitive Tag.objectId ObjectId.serverAuthentication]),
   (ObjectId.subjectKeyIdentifier, false, primitive Tag.octetString t.keyId),
   (ObjectId.basicConstraints, true, Der.sequence [primitive Tag.boolean [0xff]])]

theorem Template.extensions_eq (t : Template) :
    t.extensions = t.extensionParts.map fun (kind, critical, value) =>
      Template.extension kind critical value := by
  by_cases h : t.identity.dnsNames.isEmpty = true <;>
    simp [Template.extensions, Template.alternativeNames, extensionParts, h]

namespace Extension

/-- The extensions of a template as they are read. -/
def ofTemplate (t : Template) : List Extension :=
  t.extensionParts.map fun (kind, _, value) => ⟨kind, value⟩

/-- **All extensions of a template are read back**, in order. -/
theorem readAll_extensions {t : Template} (hl : Fits (Der.sequence t.extensions)) :
    readAll read t.extensions.flatten.length t.extensions.flatten = some (ofTemplate t) := by
  rw [Template.extensions_eq] at hl ⊢
  have hne : ∀ part ∈ t.extensionParts, Template.extension part.1 part.2.1 part.2.2 ≠ [] :=
    fun _ _ => by simp [Template.extension, Der.sequence, composite, Element.encode]
  exact readAll_encode hne
    (fun part hp => read_extension (hl.sequence_part (List.mem_map_of_mem hp)))
    (count_le_length hne)

/-- No two kinds of extension share their identifier. -/
theorem kinds_nodup : [ObjectId.subjectAlternativeName, ObjectId.keyUsage,
    ObjectId.extendedKeyUsage, ObjectId.subjectKeyIdentifier, ObjectId.basicConstraints].Nodup := by
  decide

/-- The value of an extension of a template fits if all of them do. -/
theorem fits_value {t : Template} (hl : Fits (Der.sequence t.extensions))
    {part : ObjectId × Bool × Octets} (hp : part ∈ t.extensionParts) : Fits part.2.2 := by
  rw [Template.extensions_eq] at hl
  have he : Fits (Template.extension part.1 part.2.1 part.2.2) :=
    hl.sequence_part (List.mem_map_of_mem hp)
  have hv : Fits (primitive Tag.octetString part.2.2) := he.sequence_part (by simp)
  exact hv.primitive_content

/-- **The key identifier of a template is read back.** -/
theorem subjectKeyId?_ofTemplate {t : Template} (hl : Fits (Der.sequence t.extensions)) :
    subjectKeyId? (ofTemplate t) = some t.keyId := by
  have hd := kinds_nodup
  simp only [List.nodup_cons, List.mem_cons, not_or] at hd
  have hmem : (ObjectId.subjectKeyIdentifier, false, primitive Tag.octetString t.keyId)
      ∈ t.extensionParts := by
    simp [Template.extensionParts]
  have hk := keyId?_primitive (fits_value hl hmem)
  by_cases h : t.identity.dnsNames.isEmpty = true <;>
    simp [subjectKeyId?, ofTemplate, Template.extensionParts, h, hd, hk, eq_comm]

theorem dnsNames_map_dns (names : List String) : dnsNames (names.map .dns) = names := by
  induction names with
  | nil => rfl
  | cons name names ih => exact congrArg (name :: ·) ih

/-- **The DNS names of a template are read back**, in order and as often as they are there. -/
theorem allDnsNames_ofTemplate {t : Template} (hl : Fits (Der.sequence t.extensions)) :
    allDnsNames (ofTemplate t) = t.identity.dnsNames := by
  have hd := kinds_nodup
  simp only [List.nodup_cons, List.mem_cons, not_or] at hd
  by_cases h : t.identity.dnsNames.isEmpty = true
  · have hnil : t.identity.dnsNames = [] := List.isEmpty_iff.mp h
    simp [allDnsNames, ofTemplate, Template.extensionParts, hnil, hd, eq_comm]
  · have hmem : (ObjectId.subjectAlternativeName, false,
        Der.sequence (t.identity.dnsNames.map Template.dnsName)) ∈ t.extensionParts := by
      simp [Template.extensionParts, h]
    have hn := generalNames?_dnsNames (fits_value hl hmem)
    simp [allDnsNames, ofTemplate, Template.extensionParts, h, hd, hn, dnsNames_map_dns, eq_comm]

/-- **The mark of an authority is read back.** -/
theorem marksAuthority_ofTemplate (t : Template) : marksAuthority (ofTemplate t) = true := by
  have hd := kinds_nodup
  simp only [List.nodup_cons, List.mem_cons, not_or] at hd
  by_cases h : t.identity.dnsNames.isEmpty = true <;>
    simp [marksAuthority, ofTemplate, Template.extensionParts, h, hd, authorityMark?_marked]

end Extension

end RootAuthority
