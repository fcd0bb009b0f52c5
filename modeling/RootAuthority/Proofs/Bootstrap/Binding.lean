import RootAuthority.Proofs.Bootstrap.Restart

/-!
# Certificate and key belong together

A bootstrapper that checks the binding returns only authorities whose certificate carries the public
half of their key: a recovered one because it was checked, a generated one because it was made that
way. And the check binds, since the octets of public keys tell them apart
(`StoredKey.eq_of_keyMatches`). Both are put together in `Bootstrapper.binding`.
-/

namespace RootAuthority

/-! ## 1. The check -/

namespace StoredKey

/-- A key that was read is the one in its container. -/
theorem ofContainer_eq_ok_iff {bs : Octets} {k : StoredKey} : ofContainer bs = .ok k ↔
    Rsa.PrivateKey.ofContainer bs = .ok k.key ∧ k.container = bs := by
  unfold ofContainer
  cases Rsa.PrivateKey.ofContainer bs with
  | error e => exact ⟨nofun, fun h => nomatch h.1⟩
  | ok key =>
    constructor
    · intro h
      obtain rfl := Except.ok.inj h
      exact ⟨rfl, rfl⟩
    · rintro ⟨hkey, rfl⟩
      obtain rfl := Except.ok.inj hkey
      rfl

theorem isValid_of_ofContainer {bs : Octets} {k : StoredKey} (h : ofContainer bs = .ok k) :
    k.key.IsValid := by
  obtain ⟨-, -, -, hvalid⟩ :=
    Rsa.PrivateKey.exists_of_ofContainer (ofContainer_eq_ok_iff.mp h).1
  exact hvalid

/-- **A certificate matches no two keys**: those that were read and match it have the same public
    half. -/
theorem eq_of_keyMatches {bs bs' : Octets} {k k' : StoredKey} {c : Certificate} {o o' : Origin}
    (hk : ofContainer bs = .ok k) (hk' : ofContainer bs' = .ok k')
    (h : Authority.keyMatches ⟨c, k, o⟩ = true) (h' : Authority.keyMatches ⟨c, k', o'⟩ = true) :
    k.key.publicKey = k'.key.publicKey := by
  rw [Authority.keyMatches, decide_eq_true_eq] at h h'
  exact Rsa.PublicKey.encode_injective
    (Rsa.PublicKey.isReadable_of_isValid (isValid_of_ofContainer hk))
    (Rsa.PublicKey.isReadable_of_isValid (isValid_of_ofContainer hk')) (h.trans h'.symm)

end StoredKey

namespace Bootstrapper

variable {b : Bootstrapper} {w w' : World} {a : Authority}

/-! ## 2. Runs -/

/-- What is returned after the fourth step is what was to be written. -/
theorem writeKey_ok {path : Path} {a' : Authority} (h : b.writeKey path a' w = (.ok a, w')) :
    a = a' := by
  unfold writeKey at h
  dsimp only at h
  split at h
  · obtain ⟨ha, -⟩ := Prod.mk.inj h
    exact (Except.ok.inj ha).symm
  · cases h

/-- A generated authority was minted with the next two primes, whatever the world. -/
theorem minted_of_mintAndStore (h : b.mintAndStore w = (.ok a, w')) :
    ∃ pair t signed signature, w.primes.head? = some pair ∧
      a.Minted (.ofPrimes pair) t signed signature := by
  unfold mintAndStore at h
  split at h
  · cases h
  · next hmint =>
    split at h
    · cases h
    · obtain rfl := writeKey_ok h
      exact World.minted_of_mint hmint

/-- **What a run returned** was loaded, or else minted. -/
theorem bootstrap_ok (h : b.bootstrap w = (.ok a, w')) :
    b.load w = (.ok a, w') ∨ ∃ key t signed signature, a.Minted key t signed signature := by
  unfold bootstrap at h
  split at h
  · next hload =>
    obtain ⟨ha, rfl⟩ := Prod.mk.inj h
    obtain rfl := Except.ok.inj ha
    exact .inl hload
  · obtain ⟨pair, t, signed, signature, -, hminted⟩ := minted_of_mintAndStore h
    exact .inr ⟨_, t, signed, signature, hminted⟩

/-- A recovered authority was loaded. -/
theorem load_of_recovered (h : b.bootstrap w = (.ok a, w')) (horigin : a.origin = .recovered) :
    b.load w = (.ok a, w') := by
  rcases bootstrap_ok h with hload | ⟨_, _, _, _, hminted⟩
  · exact hload
  · rw [hminted.origin] at horigin
    cases horigin

/-- **The binding of certificate and key.** Every authority that is loaded or returned under the
    check carries in its certificate the octets of the public half of its key, whatever happened to
    the files before; a certificate matches no two keys; and the certificate of a generated
    authority carries all of the public key's information. -/
theorem binding :
    (∀ (b : Bootstrapper) (w w' : World) (a : Authority), b.verifyKeyBinding = true →
      b.load w = (.ok a, w') ∨ b.bootstrap w = (.ok a, w') →
      a.certificate.publicKey.key = a.privateKey.key.publicKey.encode) ∧
    (∀ (bs bs' : Octets) (k k' : StoredKey) (c : Certificate) (o o' : Origin),
      StoredKey.ofContainer bs = .ok k → StoredKey.ofContainer bs' = .ok k' →
      Authority.keyMatches ⟨c, k, o⟩ = true → Authority.keyMatches ⟨c, k', o'⟩ = true →
      k.key.modulus = k'.key.modulus ∧ k.key.publicExponent = k'.key.publicExponent) ∧
    (∀ (b : Bootstrapper) (w w' : World) (a : Authority), b.bootstrap w = (.ok a, w') →
      a.origin = .generated →
      a.certificate.publicKey.info = a.privateKey.key.publicKey.encodeInfo) := by
  have hload {b : Bootstrapper} {w w' : World} {a : Authority} (hv : b.verifyKeyBinding = true)
      (h : b.load w = (.ok a, w')) :
      a.certificate.publicKey.key = a.privateKey.key.publicKey.encode := by
    obtain ⟨-, -, hmatches, -⟩ := load_ok h
    exact (of_decide_eq_true (hmatches hv)).symm
  refine ⟨fun b w w' a hv h => ?_, fun bs bs' k k' c o o' hk hk' h h' => ?_,
    fun b w w' a h horigin => ?_⟩
  · rcases h with h | h
    · exact hload hv h
    · rcases bootstrap_ok h with h | ⟨_, _, _, _, hminted⟩
      · exact hload hv h
      · exact (of_decide_eq_true hminted.keyMatches).symm
  · have hpublic := StoredKey.eq_of_keyMatches hk hk' h h'
    exact ⟨congrArg Rsa.PublicKey.modulus hpublic, congrArg Rsa.PublicKey.exponent hpublic⟩
  · rcases bootstrap_ok h with h | ⟨key, t, _, _, hminted⟩
    · obtain ⟨-, -, -, hrecovered⟩ := load_ok h
      rw [horigin] at hrecovered
      cases hrecovered
    · rw [hminted.certificate, hminted.privateKey]
      show t.publicKey.encodeInfo = key.publicKey.encodeInfo
      rw [hminted.publicKey]

/-- The first run of a bootstrapper, and the key that is in the file then. -/
theorem binding_inStore : ∃ a w' bs k, inStore.bootstrap World.untouched = (.ok a, w') ∧
    a.origin = .generated ∧
    a.certificate.publicKey.key = a.privateKey.key.publicKey.encode ∧
    a.certificate.publicKey.info = a.privateKey.key.publicKey.encodeInfo ∧
    w'.files.read inStore.keyAt = .ok bs ∧ StoredKey.ofContainer bs = .ok k ∧
    Authority.keyMatches ⟨a.certificate, k, .recovered⟩ = true ∧
    k.key.modulus = a.privateKey.key.modulus ∧
    k.key.publicExponent = a.privateKey.key.publicExponent := by
  obtain ⟨a, w', h, horigin⟩ := bootstrap_inStore
  obtain ⟨-, hfound⟩ := found_of_bootstrap wellFormed_untouched World.isFresh_untouched
    places_inStore.pathsApart h (.refl inStore) fun _ => .inl rfl
  obtain ⟨-, hread, hmatches, -⟩ := found_eq_ok_iff.mp hfound
  obtain ⟨bs, hbs, hk⟩ := FileSystem.readPrivateKey_eq_ok_iff.mp hread
  obtain ⟨hkey, hunique, hinfo⟩ := binding
  exact ⟨a, w', bs, _, h, horigin, hkey inStore _ _ a rfl (.inr h), hinfo inStore _ _ a h horigin,
    hbs, hk, hmatches rfl,
    hunique bs bs _ _ a.certificate .recovered .recovered hk hk (hmatches rfl) (hmatches rfl)⟩

end Bootstrapper

end RootAuthority
