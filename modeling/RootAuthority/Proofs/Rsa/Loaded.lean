import RootAuthority.Proofs.Der.Agreement
import RootAuthority.Proofs.Rsa.Container
import RootAuthority.Proofs.Rsa.Signing

/-!
# Signing with a key that was loaded

Loading a key and signing with one open the same container by different rules. If both take it, they
find the same key in it (`SigningKey.key_of_ofContainer?`), and every signature that is given out
holds under the public half of that key (`SigningKey.verify_of_isUsable`).

That loading takes a container does not mean that signing does: loading passes over the three
numbers that speed up signing, and asks less of the size of the others.
-/

namespace RootAuthority.Rsa

open Der

/-! ## 1. Both find the same key -/

/-- What stands in front of the rest after an algorithm is one sequence. -/
theorem Container.readTagged_of_readAlgorithm {bs rest : Octets}
    {algorithm : ObjectId × Option (UInt8 × Octets)}
    (h : readAlgorithm bs = some (algorithm, rest)) :
    ∃ content, Strict.readTagged 0x30 bs = some (content, rest) := by
  obtain ⟨⟨content, rest'⟩, hread, h⟩ := Option.bind_eq_some_iff.mp h
  obtain ⟨⟨id, inner⟩, -, h⟩ := Option.bind_eq_some_iff.mp h
  obtain ⟨-, -, h⟩ := Option.bind_eq_some_iff.mp h
  dsimp only at h
  split at h
  · obtain ⟨-, rfl⟩ := Prod.mk.inj (Option.some.inj h)
    exact ⟨content, hread⟩
  · obtain ⟨⟨parameters, inner'⟩, -, h⟩ := Option.bind_eq_some_iff.mp h
    dsimp only at h
    split at h
    · obtain ⟨-, rfl⟩ := Prod.mk.inj (Option.some.inj h)
      exact ⟨content, hread⟩
    · cases h

/-- Where the key of a container stands: behind its version and its algorithm. -/
theorem Container.parts_of_ofDer? {bs : Octets} {c : Container} (h : ofDer? bs = some c) :
    ∃ content version rest algorithm rest₁ rest₂, Strict.only 0x30 bs = some content ∧
      Strict.readTagged 0x02 content = some (version, rest) ∧
      Strict.readTagged 0x30 rest = some (algorithm, rest₁) ∧
      Strict.readTagged 0x04 rest₁ = some (c.key, rest₂) := by
  obtain ⟨content, honly, h⟩ := Option.bind_eq_some_iff.mp h
  obtain ⟨⟨version, rest⟩, hversion, h⟩ := Option.bind_eq_some_iff.mp h
  obtain ⟨⟨algorithm, rest₁⟩, halgorithm, h⟩ := Option.bind_eq_some_iff.mp h
  obtain ⟨⟨key, rest₂⟩, hkey, h⟩ := Option.bind_eq_some_iff.mp h
  obtain ⟨⟨hasPublicKey, rest₃⟩, -, h⟩ := Option.bind_eq_some_iff.mp h
  obtain ⟨fields, hfields⟩ := readTagged_of_readAlgorithm halgorithm
  obtain ⟨-, hc⟩ := Option.ite_none_right_eq_some.mp h
  obtain rfl := Option.some.inj hc
  exact ⟨content, version, rest, fields, rest₁, rest₂, honly, hversion, hfields, hkey⟩

namespace SigningKey

variable {bs octets : Octets} {k : PrivateKey} {signer : SigningKey}

/-- And where signing finds it. -/
theorem parts_of_keyOctets? (h : keyOctets? bs = some octets) :
    ∃ content version rest algorithm rest₁ rest₂, Compact.only 0x30 bs = some content ∧
      Compact.readTagged 0x02 content = some (version, rest) ∧
      Compact.readTagged 0x30 rest = some (algorithm, rest₁) ∧
      Compact.readTagged 0x04 rest₁ = some (octets, rest₂) := by
  obtain ⟨content, honly, h⟩ := Option.bind_eq_some_iff.mp h
  obtain ⟨⟨number, rest⟩, hnumber, h⟩ := Option.bind_eq_some_iff.mp h
  obtain ⟨⟨version, rest'⟩, hversion, hend⟩ := Option.bind_eq_some_iff.mp hnumber
  obtain ⟨value, -, hend⟩ := Option.bind_eq_some_iff.mp hend
  obtain ⟨-, rfl⟩ := Prod.mk.inj (Option.some.inj hend)
  dsimp only at h
  split at h
  · cases h
  · obtain ⟨⟨algorithm, rest₁⟩, halgorithm, h⟩ := Option.bind_eq_some_iff.mp h
    dsimp only at h
    split at h
    · cases h
    · obtain ⟨⟨key, rest₂⟩, hkey, h⟩ := Option.bind_eq_some_iff.mp h
      have hoctets : key = octets := by
        -- what follows the key decides only whether it is taken
        dsimp only at h
        split at h
        · exact Option.some.inj h
        · obtain ⟨attributes, -, h⟩ := Option.bind_eq_some_iff.mp h
          split at h
          · exact Option.some.inj h
          · cases h
        · cases h
      obtain rfl := hoctets
      exact ⟨content, version, rest', algorithm, rest₁, rest₂, honly, hversion, halgorithm, hkey⟩

/-- **Both take the same octets for the key** out of a container. -/
theorem keyOctets?_eq {c : Container} (h : Container.ofDer? bs = some c)
    (h' : keyOctets? bs = some octets) : c.key = octets := by
  obtain ⟨_, _, _, _, _, _, honly, hversion, halgorithm, hkey⟩ := Container.parts_of_ofDer? h
  obtain ⟨_, _, _, _, _, _, honly', hversion', halgorithm', hkey'⟩ := parts_of_keyOctets? h'
  obtain rfl := agree_only 0x30 honly honly'
  obtain ⟨-, rfl⟩ := Prod.mk.inj (agree_readTagged 0x02 hversion hversion')
  obtain ⟨-, rfl⟩ := Prod.mk.inj (agree_readTagged 0x30 halgorithm halgorithm')
  exact (Prod.mk.inj (agree_readTagged 0x04 hkey hkey')).1

/-- **Both read the same numbers.** -/
theorem key_of_ofOctets? (h : PrivateKey.ofDer? bs = some k) (h' : ofOctets? bs = some signer) :
    signer.key = k := by
  obtain ⟨content, honly, h⟩ := Option.bind_eq_some_iff.mp h
  obtain ⟨row, hrow, h⟩ := Option.bind_eq_some_iff.mp h
  obtain ⟨content', honly', h'⟩ := Option.bind_eq_some_iff.mp h'
  obtain ⟨row', hrow', h'⟩ := Option.bind_eq_some_iff.mp h'
  obtain rfl := agree_only 0x30 honly honly'
  obtain rfl := agree_readUnsigned.readMany 9 hrow hrow'
  split at h
  · obtain rfl := Option.some.inj h
    obtain rfl := Option.some.inj h'
    rfl
  · cases h

/-- **A key to sign with is the key that was loaded** from the same container. -/
theorem key_of_ofContainer? (h : PrivateKey.ofContainer bs = .ok k)
    (h' : ofContainer? bs = some signer) : signer.key = k ∧ signer.isUsable = true := by
  obtain ⟨c, hc, hread, -⟩ := PrivateKey.exists_of_ofContainer h
  obtain ⟨octets, hoctets, h'⟩ := Option.bind_eq_some_iff.mp h'
  obtain ⟨found, hfound, h'⟩ := Option.bind_eq_some_iff.mp h'
  rw [← keyOctets?_eq hc hoctets] at hfound
  obtain ⟨husable, hsigner⟩ := Option.ite_none_right_eq_some.mp h'
  obtain rfl := Option.some.inj hsigner
  exact ⟨key_of_ofOctets? hread hfound, husable⟩

/-! ## 2. Signatures -/

/-- The public half of a key that can be signed with has the size that signing asks for. -/
theorem publicKey_of_isUsable (h : signer.isUsable = true) :
    signer.key.publicKey.isUsable 2048 4096 65537 = true := by
  simp only [isUsable, Bool.and_eq_true, and_assoc] at h
  exact h.1

/-- That is enough to check signatures with it. -/
theorem isUsable_publicKey (h : signer.isUsable = true) :
    signer.key.publicKey.isUsable 2048 SignatureScheme.maxBits 3 = true := by
  have hpublic := publicKey_of_isUsable h
  simp only [PublicKey.isUsable, Bool.and_eq_true, decide_eq_true_eq, and_assoc] at hpublic ⊢
  obtain ⟨hodd, hmin, hmax, hexponent, hlow, hhigh⟩ := hpublic
  exact ⟨hodd, hmin, Nat.le_trans hmax (by decide), hexponent, Nat.le_trans (by decide) hlow, hhigh⟩

/-- And its modulus leaves room for a padded digest. -/
theorem room_of_isUsable (h : signer.isUsable = true) :
    62 ≤ Octets.width signer.key.modulus := by
  have hpublic := publicKey_of_isUsable h
  simp only [PublicKey.isUsable, Bool.and_eq_true, decide_eq_true_eq, and_assoc] at hpublic
  obtain ⟨-, hmin, -⟩ := hpublic
  change 2048 ≤ 8 * Octets.width signer.key.modulus at hmin
  omega

/-- The modulus of a key that can be signed with is the product of two positive numbers. -/
theorem factors_of_isUsable (h : signer.isUsable = true) : 0 < signer.key.prime1 ∧
    0 < signer.key.prime2 ∧ signer.key.prime1 * signer.key.prime2 = signer.key.modulus := by
  simp only [isUsable, isPrimeSized, Bool.and_eq_true, decide_eq_true_eq, and_assoc] at h
  obtain ⟨-, -, hp, -, -, -, hq, -, -, hn, -⟩ := h
  exact ⟨by omega, by omega, hn⟩

/-- **A signature that a key gives out holds** under its public half as it is embedded in
    certificates, whether or not the numbers of the key belong together. -/
theorem verify_of_isUsable (hvalid : signer.key.IsValid) (husable : signer.isUsable = true)
    {message signature : Octets} (hs : signer.sign? message = some signature) :
    SignatureScheme.verify (.rsa .sha256 2048) signer.key.publicKey.encode message signature
      = true := by
  obtain ⟨hp, hq, hn⟩ := factors_of_isUsable husable
  have hread := PublicKey.ofDer?_encode (PublicKey.isReadable_of_isValid hvalid)
  have hverify := verify_of_sign? hp hq hn hs
  simp only [SignatureScheme.verify, hread, Bool.and_eq_true]
  exact ⟨isUsable_publicKey husable, hverify⟩

end SigningKey

end RootAuthority.Rsa
