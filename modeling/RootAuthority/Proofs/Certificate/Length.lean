import RootAuthority.Proofs.Certificate.Reader
import RootAuthority.Proofs.Der.Number

/-!
# How long a certificate can get

Everything in a certificate is short but for the texts of its holder, so its length can be written
whenever these texts fit into memory (`Template.contentsFit`). The octets around a text are counted
generously: no element adds more than ten to its contents (`Der.length_encode_le_add`).
-/

namespace RootAuthority

/-- The octets that an identity takes in memory: those of its texts, and 24 for each of the DNS
    names. -/
def Identity.size (identity : Identity) : Nat :=
  (Octets.ofText identity.commonName).length + (Octets.ofText identity.organization).length
    + (identity.dnsNames.map Octets.ofText).flatten.length + 24 * identity.dnsNames.length

namespace Der

theorem length_encode_le_add {e : Element} {b : Nat} (h : e.content.length ≤ b)
    (hb : b < 256 ^ 8) : e.encode.length ≤ b + 10 :=
  length_encode_le 8 h hb

theorem length_primitive_le {number b : Nat} {content : Octets} (h : content.length ≤ b)
    (hb : b < 256 ^ 8) : (primitive number content).length ≤ b + 10 :=
  length_encode_le_add (e := ⟨Tag.primitive number, content⟩) h hb

theorem length_composite_le {number b : Nat} {parts : List Octets}
    (h : parts.flatten.length ≤ b) (hb : b < 256 ^ 8) : (composite number parts).length ≤ b + 10 :=
  length_encode_le_add (e := ⟨Tag.composite number, parts.flatten⟩) h hb

theorem length_sequence_le {b : Nat} {parts : List Octets} (h : parts.flatten.length ≤ b)
    (hb : b < 256 ^ 8) : (Der.sequence parts).length ≤ b + 10 :=
  length_composite_le h hb

end Der

namespace Template

open Der

variable {identity : Identity}

/-! ## 1. The parts that hold texts -/

theorem length_attribute_le {kind : ObjectId} {text : String} (hk : kind.length = 3)
    (ht : (Octets.ofText text).length < 2 ^ 63) :
    (Attribute.ofText kind text).encode.length ≤ (Octets.ofText text).length + 33 := by
  have hkind : (primitive Tag.objectId (Attribute.ofText kind text).kind).length ≤ 13 :=
    length_primitive_le (Nat.le_of_eq hk) (by decide)
  have hvalue : (Attribute.ofText kind text).value.encode.length
      ≤ (Octets.ofText text).length + 10 :=
    length_encode_le_add (e := ⟨Tag.primitive Tag.utf8String, Octets.ofText text⟩) (Nat.le_refl _)
      (by omega)
  refine length_sequence_le ?_ (by omega)
  simp only [List.flatten_cons, List.flatten_nil, List.length_append, List.length_nil]
  omega

theorem length_level_le {kind : ObjectId} {text : String} (hk : kind.length = 3)
    (ht : (Octets.ofText text).length < 2 ^ 63) :
    (Name.encodeLevel [Attribute.ofText kind text]).length ≤ (Octets.ofText text).length + 43 := by
  have hattribute := length_attribute_le hk ht
  refine length_composite_le ?_ (by omega)
  simpa using hattribute

theorem length_name_le (h : identity.size < 2 ^ 62) :
    (name identity).encode.length ≤ identity.size + 96 := by
  unfold Identity.size at h ⊢
  have hcommon : (Name.encodeLevel [Attribute.ofText ObjectId.commonName
      identity.commonName]).length ≤ _ := length_level_le (by decide) (by omega)
  have horganization : (Name.encodeLevel [Attribute.ofText ObjectId.organizationName
      identity.organization]).length ≤ _ := length_level_le (by decide) (by omega)
  have hlevels : ((name identity).map Name.encodeLevel).flatten.length
      ≤ (Octets.ofText identity.commonName).length
        + (Octets.ofText identity.organization).length + 86 := by
    simp only [name, List.map_cons, List.map_nil, List.flatten_cons, List.flatten_nil,
      List.length_append, List.length_nil]
    omega
  have hname : (name identity).encode.length ≤ _ := length_sequence_le hlevels (by omega)
  omega

theorem length_dnsNames_le : ∀ {names : List String},
    (names.map Octets.ofText).flatten.length + 24 * names.length < 2 ^ 62 →
    (names.map dnsName).flatten.length
      ≤ (names.map Octets.ofText).flatten.length + 24 * names.length
  | [], _ => by simp
  | name :: names, h => by
      simp only [List.map_cons, List.flatten_cons, List.length_append, List.length_cons] at h ⊢
      have ih : (names.map dnsName).flatten.length ≤ _ := length_dnsNames_le (by omega)
      have hname : (dnsName name).length ≤ (Octets.ofText name).length + 10 :=
        length_encode_le_add (e := ⟨Tag.context false 2, Octets.ofText name⟩) (Nat.le_refl _)
          (by omega)
      omega

/-! ## 2. Extensions -/

/-- An extension whose kind has three octets. -/
theorem length_extension_le {kind : ObjectId} {critical : Bool} {value : Octets} {b : Nat}
    (hk : kind.length = 3) (h : value.length ≤ b) (hb : b < 2 ^ 63) :
    (extension kind critical value).length ≤ b + 36 := by
  have hkind : (primitive Tag.objectId kind).length ≤ 13 :=
    length_primitive_le (Nat.le_of_eq hk) (by decide)
  have hvalue : (primitive Tag.octetString value).length ≤ b + 10 :=
    length_primitive_le h (by omega)
  have hmark : (if critical then [primitive Tag.boolean [0xff]] else []).flatten.length ≤ 3 := by
    cases critical <;> decide
  refine length_sequence_le (b := b + 26) ?_ (by omega)
  simp only [List.flatten_append, List.flatten_cons, List.flatten_nil, List.length_append,
    List.length_nil]
  omega

theorem length_alternativeNames_le (h : identity.size < 2 ^ 62) :
    (alternativeNames identity.dnsNames).flatten.length ≤ identity.size + 46 := by
  unfold alternativeNames
  split
  · simp
  · unfold Identity.size at h ⊢
    have hnames : (identity.dnsNames.map dnsName).flatten.length ≤ _ :=
      length_dnsNames_le (by omega)
    have hvalue := length_sequence_le hnames (by omega)
    have hextension : (extension ObjectId.subjectAlternativeName false
        (Der.sequence (identity.dnsNames.map dnsName))).length ≤ _ :=
      length_extension_le (by decide) hvalue (by omega)
    rw [List.flatten_singleton]
    omega

theorem length_extensions_le {t : Template} (h : t.identity.size < 2 ^ 62)
    (hid : t.keyId.length = 20) : t.extensions.flatten.length ≤ t.identity.size + 300 := by
  have hnames := length_alternativeNames_le h
  have huses : (extension ObjectId.keyUsage true keyUses).length ≤ 40 :=
    length_extension_le (b := 4) (by decide) (by decide) (by decide)
  have hpurpose : (extension ObjectId.extendedKeyUsage false
      (Der.sequence [primitive Tag.objectId ObjectId.serverAuthentication])).length ≤ 66 :=
    length_extension_le (b := 30) (by decide) (by decide) (by decide)
  have hkeyId : (extension ObjectId.subjectKeyIdentifier false
      (primitive Tag.octetString t.keyId)).length ≤ 66 :=
    length_extension_le (b := 30) (by decide)
      (length_primitive_le (b := 20) (Nat.le_of_eq hid) (by decide)) (by decide)
  have hmark : (extension ObjectId.basicConstraints true
      (Der.sequence [primitive Tag.boolean [0xff]])).length ≤ 66 :=
    length_extension_le (b := 30) (by decide) (by decide) (by decide)
  simp only [extensions, List.flatten_append, List.flatten_cons, List.flatten_nil,
    List.length_append, List.length_nil]
  omega

/-! ## 3. The whole -/

theorem length_encodeTime_le {secs : Int} {bs : Octets} (h : Validity.encodeTime secs = some bs)
    (hy : (CivilTime.ofSeconds secs).date.year ≤ 9999) : bs.length ≤ 30 := by
  by_cases hshort : 1950 ≤ (CivilTime.ofSeconds secs).date.year
      ∧ (CivilTime.ofSeconds secs).date.year < 2050
  · rw [Validity.encodeTime_short hshort.1 hshort.2] at h
    obtain rfl := Option.some.inj h
    refine length_primitive_le (b := 20) (Nat.le_of_lt ?_) (by decide)
    simp [Validity.twoDigits, Validity.length_fieldOctets]
  · rw [Validity.encodeTime_long (Validity.year_of_encodeTime h) hy hshort] at h
    obtain rfl := Option.some.inj h
    refine length_primitive_le (b := 20) (Nat.le_of_lt ?_) (by decide)
    simp [Validity.twoDigits, Validity.length_fieldOctets]

/-- What the parts of a certificate that hold no texts may take, and more than they need. -/
structure IsModest (t : Template) : Prop where
  years : t.YearsFit
  serial : Octets.width t.serial ≤ 8
  keyId : t.keyId.length = 20
  publicKey : t.publicKey.encodeInfo.length ≤ 3000

theorem length_encodeSigned_le {t : Template} {signed : Octets} (h : t.encodeSigned? = some signed)
    (ht : t.IsModest) (hsize : t.identity.size < 2 ^ 62) :
    signed.length ≤ 3 * t.identity.size + 4000 := by
  simp only [encodeSigned?, Option.bind_eq_bind, Option.bind_eq_some_iff, Option.pure_def,
    Option.some.injEq] at h
  obtain ⟨notBefore, hb, notAfter, ha, rfl⟩ := h
  have hbefore := length_encodeTime_le hb ht.years.1
  have hafter := length_encodeTime_le ha ht.years.2
  have hversion : (Element.encode ⟨Tag.context true 0, integer 2⟩).length = 5 := by decide
  have hcontent := Der.length_integerContent_le t.serial
  have hserial : (integer t.serial).length ≤ 19 :=
    length_primitive_le (b := 9) (by have := ht.serial; omega) (by decide)
  have halgorithm : signatureAlgorithm.length = 15 := by decide
  have hname := length_name_le hsize
  have hvalidity : (Der.sequence [notBefore, notAfter]).length ≤ 70 :=
    length_sequence_le (b := 60) (by
      simp only [List.flatten_cons, List.flatten_nil, List.length_append, List.length_nil]
      omega) (by decide)
  have hkey := ht.publicKey
  have hextensions := length_extensions_le hsize ht.keyId
  have hinner := length_sequence_le hextensions (by omega)
  have houter := length_encode_le_add (e := ⟨Tag.context true 3, Der.sequence t.extensions⟩) hinner
    (by omega)
  refine length_sequence_le (b := 3 * t.identity.size + 3990) ?_ (by omega)
  simp only [List.flatten_cons, List.flatten_nil, List.length_append, List.length_nil]
  omega

/-- **The length of a certificate can be written**, if the texts of its holder fit into memory. -/
theorem contentsFit {t : Template} {signed signature : Octets} (h : t.encodeSigned? = some signed)
    (ht : t.IsModest) (hsize : t.identity.size < 2 ^ 62) (hs : signature.length ≤ 1000) :
    ContentsFit signed signature := by
  have hsigned := length_encodeSigned_le h ht hsize
  have halgorithm : signatureAlgorithm.length = 15 := by decide
  have hsignature : (primitive Tag.bitString (0 :: signature)).length ≤ 1011 :=
    length_primitive_le (b := 1001) (by rw [List.length_cons]; omega) (by decide)
  unfold ContentsFit
  simp only [List.flatten_cons, List.flatten_nil, List.length_append, List.length_nil]
  omega

end Template

end RootAuthority
