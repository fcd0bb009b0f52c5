import RootAuthority.Proofs.Certificate.Serial
import RootAuthority.Proofs.Mint

/-!
# What a minted certificate says

A minted authority holds the certificate that was read back from its own octets, and looking things
up in it gives what minting was asked for (`World.mint_content`): the texts of the identity whatever
their length, the DNS names in order and with repetitions, the next serial number, and the public
half of the private key with the digest that identifies it.

Names and serial number are looked up by functions of their own; the lemmas of section 1 say what
these find in the certificate that a template stands for.
-/

namespace RootAuthority

open Der

/-! ## 1. Looking things up -/

namespace Name

/-- A text is found by its kind behind attributes of other kinds. -/
theorem firstText?_ofText {n : Name} {kind : ObjectId} {text : String} {back : RelativeName}
    (front : RelativeName) (hn : n.flatten = front ++ Attribute.ofText kind text :: back)
    (hfront : ∀ a ∈ front, a.kind ≠ kind) : n.firstText? kind = some text := by
  have hfind : n.flatten.find? (fun a => decide (a.kind = kind))
      = some (Attribute.ofText kind text) := by
    rw [hn, List.find?_append, List.find?_eq_none.mpr (by simpa using hfront), Option.none_or]
    exact List.find?_cons_of_pos (decide_eq_true rfl)
  have htag : plainTextTags.contains (Attribute.ofText kind text).value.tag.number = true := rfl
  rw [firstText?, hfind]
  dsimp only
  rw [if_pos htag]
  exact Octets.toText?_ofText text

end Name

namespace Template

variable (t : Template) (signed signature : Octets)

theorem commonName?_certificate :
    (t.certificate signed signature).commonName? = some t.identity.commonName :=
  Name.firstText?_ofText [] rfl (by simp)

theorem organization?_certificate :
    (t.certificate signed signature).organization? = some t.identity.organization := by
  refine Name.firstText?_ofText [Attribute.ofText ObjectId.commonName t.identity.commonName] rfl
    fun a ha => ?_
  rw [List.mem_singleton.mp ha]
  exact show ObjectId.commonName ≠ ObjectId.organizationName by decide

end Template

/-! ## 2. Minted certificates -/

namespace World

variable {w w' : World} {identity : Identity} {a : Authority}

/-- **Reading a minted certificate gives back what it was minted for**, whatever the identity, the
    key and the time: the octets are read as the certificate itself, which names the identity's
    texts and its DNS names in order, is its own issuer, carries the next serial number and the mark
    of an authority, and embeds the public half of the private key, identified by its digest. -/
theorem mint_content (h : w.mint identity = (.ok a, w')) :
    Certificate.ofDer a.certificate.der = .ok a.certificate ∧
    a.certificate.commonName? = some identity.commonName ∧
    a.certificate.organization? = some identity.organization ∧
    a.certificate.dnsNames = identity.dnsNames ∧
    a.certificate.issuer = a.certificate.subject ∧
    a.certificate.serialNumber? = some (w.serials.current + 1) ∧
    a.certificate.isAuthority = true ∧
    a.certificate.subjectKeyId = some (Digest.sha1 a.privateKey.key.publicKey.encodeInfo) ∧
    a.certificate.publicKey.info = a.privateKey.key.publicKey.encodeInfo ∧
    a.certificate.publicKey.key = a.privateKey.key.publicKey.encode := by
  obtain ⟨pair, t, signed, signature, hserial, -, ht, hminted⟩ := template_of_mint h
  obtain ⟨rfl, hnumber, hkey, hid, -⟩ := Template.mintedAt_ok ht
  have hfits : t.serial < 2 ^ 64 := by
    rw [hnumber]
    exact Nat.lt_of_le_of_lt hserial (by decide)
  refine ⟨hminted.readBack, ?_⟩
  rw [hminted.certificate, hminted.privateKey, ← hnumber]
  refine ⟨t.commonName?_certificate signed signature, t.organization?_certificate signed signature,
    rfl, rfl, t.serialNumber?_certificate signed signature hfits, rfl, ?_, ?_, ?_⟩
  · exact congrArg some hid
  · exact congrArg Rsa.PublicKey.encodeInfo hkey
  · exact congrArg Rsa.PublicKey.encode hkey

/-- An identity with letters outside ASCII, no organization and a DNS name that is repeated. -/
def unusual : Identity := ⟨"Wurzel-CA ✓ für größere Häuser", "", ["b.test", "a.test", "b.test"]⟩

/-- The unusual identity, with the first serial number. -/
theorem mint_content_unusual : ∃ a w', untouched.mint unusual = (.ok a, w') ∧
    a.certificate.commonName? = some "Wurzel-CA ✓ für größere Häuser" ∧
    a.certificate.organization? = some "" ∧
    a.certificate.dnsNames = ["b.test", "a.test", "b.test"] ∧
    a.certificate.serialNumber? = some 1 := by
  have hcan : untouched.CanMint unusual :=
    { canMint_untouched with
      names := by decide
      size := by decide +kernel }
  obtain ⟨a, w', h⟩ := mint_succeeds hcan
  obtain ⟨-, hname, horganization, hdns, -, hserial, -⟩ := mint_content h
  exact ⟨a, w', h, hname, horganization, hdns, hserial⟩

end World

end RootAuthority
