import RootAuthority.Certificate.Signature
import RootAuthority.Proofs.Certificate.NameText
import RootAuthority.Proofs.Certificate.Reader
import RootAuthority.Proofs.Mint
import RootAuthority.Proofs.Rsa.Existence

/-!
# Self-signed certificates

A certificate counts as self-signed if its two names have the same text and its signature holds
under its own public key. `Certificate.isSelfSigned_iff` says how far this is right for the
certificates that can be read:

* one that is its own issuer counts as self-signed exactly if the signature holds;
* one with plain names counts as self-signed exactly if besides this the same is shown of its two
  names, level by level; if the tags of their values agree, the names are then the same.

Without plain names it is not right. `Certificate.forged` has a common name as its issuer that reads
like the two levels of its subject.
-/

namespace RootAuthority

open Der

/-! ## 1. The names of a certificate -/

namespace Name

/-- What a reader takes from octets item by item. -/
theorem exists_of_mem_readWhile {α : Type} {item : Octets → Option (α × Octets)} {a : α} :
    ∀ {fuel : Nat} {bs : Octets}, a ∈ readWhile item fuel bs → ∃ bs' rest, item bs' = some (a, rest)
  | 0, _, h => by cases h
  | fuel + 1, bs, h => by
      rw [readWhile] at h
      split at h
      · cases h
      · next b rest hread =>
        rcases List.mem_cons.mp h with rfl | h
        · exact ⟨bs, rest, hread⟩
        · exact exists_of_mem_readWhile h

/-- A level that was read has at least one attribute. -/
theorem ne_nil_of_readRelative {bs rest : Octets} {level : RelativeName}
    (h : readRelative bs = some (level, rest)) : level ≠ [] := by
  simp only [readRelative, Option.bind_eq_bind, Option.bind_eq_some_iff] at h
  obtain ⟨⟨e, rest'⟩, -, h⟩ := h
  split at h
  · cases h
  · split at h
    · cases h
    · next hne =>
      obtain ⟨rfl, -⟩ := Prod.mk.inj (Option.some.inj h)
      exact hne

/-- **A name that was read has no empty level.** -/
theorem levels_of_read {bs rest : Octets} {n : Name} (h : read bs = some (n, rest)) :
    ∀ level ∈ n, level ≠ [] := by
  simp only [read, Option.bind_eq_bind, Option.bind_eq_some_iff] at h
  obtain ⟨⟨e, rest'⟩, -, h⟩ := h
  split at h
  · cases h
  · obtain ⟨rfl, -⟩ := Prod.mk.inj (Option.some.inj h)
    intro level hm
    obtain ⟨_, _, hread⟩ := exists_of_mem_readWhile hm
    exact ne_nil_of_readRelative hread

end Name

namespace Certificate

theorem levels_of_readSigned {bs rest : Octets} {s : Signed}
    (h : readSigned bs = some (s, rest)) :
    (∀ level ∈ s.subject, level ≠ []) ∧ ∀ level ∈ s.issuer, level ≠ [] := by
  simp only [readSigned, Option.bind_eq_bind, Option.bind_eq_some_iff, Option.pure_def,
    Option.some.injEq, Prod.mk.injEq] at h
  obtain ⟨_, -, _, -, _, -, _, -, issuer, hissuer, _, -, subject, hsubject, h⟩ := h
  obtain ⟨_, -, _, -, _, -, _, -, rfl, -⟩ := h
  exact ⟨Name.levels_of_read hsubject, Name.levels_of_read hissuer⟩

/-- **The names of a certificate that was read** have no empty levels. -/
theorem levels_of_ofDer {bs : Octets} {c : Certificate} (h : ofDer bs = .ok c) :
    (∀ level ∈ c.subject, level ≠ []) ∧ ∀ level ∈ c.issuer, level ≠ [] := by
  obtain ⟨p, hread, rfl⟩ := ofDer_eq_ok_iff.mp h
  simp only [read, withOctets, Option.bind_eq_bind, Option.bind_eq_some_iff, Option.pure_def,
    Option.some.injEq, Prod.mk.injEq] at hread
  obtain ⟨_, -, _, ⟨⟨fields, rest⟩, hsigned, rfl⟩, _, -, _, -, rfl, -⟩ := hread
  exact levels_of_readSigned hsigned

/-! ## 2. Self-signed certificates -/

theorem isSelfSigned_eq_true_iff {c : Certificate} :
    c.isSelfSigned = true ↔ c.subject.text = c.issuer.text ∧ c.signedBy c.publicKey = true := by
  rw [isSelfSigned, Bool.and_eq_true, decide_eq_true_eq]

/-- **When a certificate that can be read counts as self-signed.** If it is its own issuer, then
    exactly if its signature holds under its own public key. If its names are plain, then exactly if
    the signature holds and the same is shown of both names, level by level; and, where the tags of
    their values agree, exactly if the signature holds and it is its own issuer. -/
theorem isSelfSigned_iff {bs : Octets} {c : Certificate} (h : ofDer bs = .ok c) :
    (c.subject = c.issuer → (c.isSelfSigned = true ↔ c.signedBy c.publicKey = true)) ∧
    (c.subject.IsPlain → c.issuer.IsPlain →
      (c.isSelfSigned = true
        ↔ c.subject.fields = c.issuer.fields ∧ c.signedBy c.publicKey = true) ∧
      (c.subject.tags = c.issuer.tags →
        (c.isSelfSigned = true ↔ c.subject = c.issuer ∧ c.signedBy c.publicKey = true))) := by
  obtain ⟨hsubject, hissuer⟩ := levels_of_ofDer h
  refine ⟨?_, ?_⟩
  · intro hnames
    rw [isSelfSigned_eq_true_iff, hnames]
    exact and_iff_right rfl
  · intro hs hi
    have hfields := Name.text_eq_iff hs hi hsubject hissuer
    rw [isSelfSigned_eq_true_iff, hfields]
    refine ⟨Iff.rfl, ?_⟩
    intro htags
    have hname : c.subject.fields = c.issuer.fields ↔ c.subject = c.issuer :=
      ⟨Name.eq_of_fields hs hi htags, congrArg Name.fields⟩
    rw [hname]

end Certificate

/-- A text without an equals sign makes a plain attribute. -/
theorem Attribute.isPlain_ofText {kind : ObjectId} {text : String}
    (hkind : ObjectId.IsWritten kind) (htext : '=' ∉ text.toList) :
    (Attribute.ofText kind text).IsPlain := by
  have hvalue : Name.valueText? (Attribute.ofText kind text).value = some text :=
    Octets.toText?_ofText text
  refine ⟨hvalue ▸ rfl, nofun, hkind, ?_⟩
  rw [Attribute.field, hvalue]
  exact htext

/-- **Minted names are plain**, unless a text of the identity holds an equals sign. -/
theorem Template.isPlain_name {identity : Identity} (hname : '=' ∉ identity.commonName.toList)
    (horganization : '=' ∉ identity.organization.toList) : (Template.name identity).IsPlain := by
  have hkind {n : Nat} (h : n < 2 ^ 63) : ObjectId.IsWritten (ObjectId.ofArcs [2, 5, 4, n]) :=
    ObjectId.isWritten_ofArcs (by simpa using h)
  intro level hm a ha
  simp only [Template.name, List.mem_cons, List.not_mem_nil, or_false] at hm
  rcases hm with rfl | rfl
  · rw [List.mem_singleton.mp ha]
    exact Attribute.isPlain_ofText (hkind (by decide)) hname
  · rw [List.mem_singleton.mp ha]
    exact Attribute.isPlain_ofText (hkind (by decide)) horganization

namespace Certificate

/-- A freshly minted authority with the default identity. -/
theorem isSelfSigned_minted : ∃ bs c, ofDer bs = .ok c ∧ c.isSelfSigned = true ∧
    c.subject.IsPlain ∧ c.issuer.IsPlain ∧ c.subject.tags = c.issuer.tags ∧
    c.subject = c.issuer ∧ c.signedBy c.publicKey = true := by
  obtain ⟨a, w', h⟩ := World.mint_succeeds World.canMint_untouched
  obtain ⟨pair, t, signed, signature, -, hhead, ht, hminted⟩ := World.template_of_mint h
  obtain ⟨hidentity, -⟩ := Template.mintedAt_ok ht
  have hself := hminted.isSelfSigned (World.isFresh_untouched pair hhead)
  have hsubject : a.certificate.subject = Template.name .default := by
    rw [hminted.certificate, ← hidentity]
    rfl
  have hissuer : a.certificate.issuer = Template.name .default := by
    rw [hminted.certificate, ← hidentity]
    rfl
  have hplain : (Template.name .default).IsPlain := Template.isPlain_name (by decide) (by decide)
  have htags : a.certificate.subject.tags = a.certificate.issuer.tags := by rw [hsubject, hissuer]
  have hiff := (isSelfSigned_iff hminted.readBack).2 (hsubject ▸ hplain) (hissuer ▸ hplain)
  obtain ⟨hnames, hsigned⟩ := (hiff.2 htags).mp hself
  exact ⟨_, _, hminted.readBack, hself, hsubject ▸ hplain, hissuer ▸ hplain, htags, hnames, hsigned⟩

/-! ## 3. A certificate that only looks self-signed -/

/-- One common name that reads like the two levels of the default identity. -/
def forgedIssuer : Name := [[Attribute.ofText ObjectId.commonName "MITM CA, O=mitm-ca"]]

/-- The key of the certificate, which also signs it. -/
def forgedKey : Rsa.PrivateKey := .ofPrimes .smooth

/-- A signed part without extensions for the default identity, with the other name as its issuer. -/
def forgedSigned : Octets :=
  Der.sequence [Element.encode ⟨Tag.context true 0, integer 2⟩, integer 1,
    Template.signatureAlgorithm, forgedIssuer.encode,
    Der.sequence [primitive Tag.utcTime (Octets.ofText "230301120000Z"),
      primitive Tag.utcTime (Octets.ofText "250301120000Z")],
    (Template.name .default).encode, forgedKey.publicKey.encodeInfo]

/-- The octets of the certificate. -/
def forged : Octets :=
  Template.encodeCertificate forgedSigned
    (((Rsa.SigningKey.ofKey forgedKey).sign? forgedSigned).getD [])

/-- The octets are read as a certificate that counts as self-signed but is not its own issuer. -/
def looksSelfSigned (bs : Octets) : Bool :=
  match ofDer bs with
  | .ok c => c.isSelfSigned && decide (c.subject ≠ c.issuer)
  | .error _ => false

theorem exists_of_looksSelfSigned {bs : Octets} (h : looksSelfSigned bs = true) :
    ∃ c, ofDer bs = .ok c ∧ c.isSelfSigned = true ∧ c.subject ≠ c.issuer := by
  unfold looksSelfSigned at h
  split at h
  · next c hread =>
    rw [Bool.and_eq_true, decide_eq_true_eq] at h
    exact ⟨c, hread, h.1, h.2⟩
  · cases h

/-- **A certificate that is not its own issuer counts as self-signed.** -/
theorem forged_isSelfSigned :
    ∃ c, ofDer forged = .ok c ∧ c.isSelfSigned = true ∧ c.subject ≠ c.issuer :=
  exists_of_looksSelfSigned (by decide +kernel)

end Certificate

end RootAuthority
