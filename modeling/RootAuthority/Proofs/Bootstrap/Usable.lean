import RootAuthority.Proofs.Bootstrap.Binding

/-!
# When a recovered authority can sign

An authority can sign (`Authority.CanSign`) if there is a key to sign with and every message gets a
signature that holds under the key embedded in the certificate. A generated authority always can. A
recovered one was loaded by rules that are less strict than those of signing, so it may have no key
to sign with at all (`Bootstrapper.recovered_without_coefficient`).

What holds of every recovered authority whose binding was checked is `Bootstrapper.recovered_signs`:
no wrong signature is ever given out, and whether it can sign is decided by the numbers in its key
file. It can if the file is one that was written for a fresh key.
-/

namespace RootAuthority

/-! ## 1. Keys in containers -/

/-- **The authority can sign**: there is a key to sign with, and every message gets a signature that
    holds under the key embedded in the certificate. -/
def Authority.CanSign (a : Authority) : Prop :=
  ∃ signer, a.signingKey? = some signer ∧ ∀ message, ∃ signature,
    signer.sign? message = some signature ∧
    SignatureScheme.verify (.rsa .sha256 2048) a.certificate.publicKey.key message signature = true

namespace Authority

variable {a : Authority}

/-- **An authority with a readable container**, and a certificate for the key in it. -/
structure IsRead (a : Authority) : Prop where
  key : Rsa.PrivateKey.ofContainer a.privateKey.container = .ok a.privateKey.key
  binding : a.certificate.publicKey.key = a.privateKey.key.publicKey.encode

/-- **No wrong signature is given out**, and the key that signs is the one that was read. -/
theorem IsRead.verify_of_sign? (h : a.IsRead) {signer : Rsa.SigningKey}
    (hsigner : a.signingKey? = some signer) : signer.key = a.privateKey.key ∧
    ∀ message signature, signer.sign? message = some signature →
      SignatureScheme.verify (.rsa .sha256 2048) a.certificate.publicKey.key message signature
        = true := by
  obtain ⟨hkey, husable⟩ := Rsa.SigningKey.key_of_ofContainer? h.key hsigner
  obtain ⟨-, -, -, hvalid⟩ := Rsa.PrivateKey.exists_of_ofContainer h.key
  refine ⟨hkey, fun message signature hs => ?_⟩
  rw [h.binding, ← hkey]
  rw [← hkey] at hvalid
  exact Rsa.SigningKey.verify_of_isUsable hvalid husable hs

/-- The key to sign with is the one that the container was made of, if that is usable. -/
theorem signingKey?_of_container {k : Rsa.SigningKey} (hshort : k.IsShort)
    (hcontainer : a.privateKey.container = k.encodeContainer) :
    a.signingKey? = if k.isUsable then some k else none := by
  rw [signingKey?, hcontainer]
  exact Rsa.SigningKey.ofContainer?_encodeContainer hshort

/-- **An authority with a sound key can sign** exactly if that key is usable. -/
theorem IsRead.canSign_iff (h : a.IsRead) {k : Rsa.SigningKey} (hshort : k.IsShort)
    (hcontainer : a.privateKey.container = k.encodeContainer) (hsound : k.IsSound) :
    a.CanSign ↔ k.isUsable = true := by
  have hsigner := signingKey?_of_container hshort hcontainer
  constructor
  · rintro ⟨signer, hsome, -⟩
    rw [hsigner] at hsome
    exact (Option.ite_none_right_eq_some.mp hsome).1
  · intro husable
    rw [if_pos husable] at hsigner
    refine ⟨k, hsigner, fun message => ?_⟩
    obtain ⟨signature, hs, -⟩ := Rsa.SigningKey.sign?_isSome hsound
      (Rsa.SigningKey.room_of_isUsable husable) message
    exact ⟨signature, hs, (h.verify_of_sign? hsigner).2 message signature hs⟩

/-- An authority without a key to sign with cannot sign. -/
theorem not_canSign_of_container {k : Rsa.SigningKey} (hshort : k.IsShort)
    (hcontainer : a.privateKey.container = k.encodeContainer) (h : k.isUsable = false) :
    ¬a.CanSign := by
  rintro ⟨signer, hsigner, -⟩
  rw [signingKey?_of_container hshort hcontainer, h] at hsigner
  cases hsigner

end Authority

/-! ## 2. Recovered authorities -/

namespace Bootstrapper

variable {b : Bootstrapper} {w w' : World} {a : Authority}

/-- What was loaded was read from its container, and belongs to its certificate if that was
    checked. -/
theorem isRead_of_load (hv : b.verifyKeyBinding = true) (h : b.load w = (.ok a, w')) :
    a.IsRead := by
  obtain ⟨-, ⟨files, hkey⟩, hmatches, -⟩ := load_ok h
  obtain ⟨contents, -, hread⟩ := FileSystem.readPrivateKey_eq_ok_iff.mp hkey
  obtain ⟨hread, rfl⟩ := StoredKey.ofContainer_eq_ok_iff.mp hread
  exact ⟨hread, (of_decide_eq_true (hmatches hv)).symm⟩

/-- The key file of a generated authority was written for the next two primes. -/
theorem container_of_bootstrap (hw : w.files.WellFormed) (h : b.bootstrap w = (.ok a, w'))
    (horigin : a.origin = .generated) : ∃ pair, w.primes.head? = some pair ∧
      a.privateKey.container = (Rsa.PrivateKey.ofPrimes pair).encodeContainer := by
  obtain ⟨events, hrun⟩ := bootstrap_eq (b := b) (Locator.settled_prepare hw)
  rw [h] at hrun
  cases hfound : b.found (b.locator.prepare w.files) with
  | ok a' =>
    rw [hfound] at hrun
    obtain rfl := Except.ok.inj (Prod.mk.inj hrun).1
    obtain ⟨-, -, -, hrecovered⟩ := found_eq_ok_iff.mp hfound
    rw [horigin] at hrecovered
    cases hrecovered
  | error e =>
    rw [hfound] at hrun
    obtain ⟨pair, t, signed, signature, hhead, hminted⟩ := minted_of_mintAndStore hrun.symm
    exact ⟨pair, hhead, congrArg StoredKey.container hminted.privateKey⟩

/-- **What a recovered authority signs**, whatever the files hold, if its binding is checked. A
    signature is made with the recovered key and holds under the certificate. In a key file with
    short numbers they decide whether there is a key to sign with, and with one that is sound every
    message is signed; so it is with every key file that was written for a fresh key. -/
theorem recovered_signs (hv : b.verifyKeyBinding = true)
    (h : b.load w = (.ok a, w') ∨ b.bootstrap w = (.ok a, w') ∧ a.origin = .recovered) :
    (∀ signer, a.signingKey? = some signer → signer.key = a.privateKey.key ∧
      ∀ message signature, signer.sign? message = some signature →
        SignatureScheme.verify (.rsa .sha256 2048) a.certificate.publicKey.key message signature
          = true) ∧
    (∀ k : Rsa.SigningKey, k.IsShort → a.privateKey.container = k.encodeContainer →
      a.signingKey? = (if k.isUsable then some k else none) ∧
      (k.IsSound → (a.CanSign ↔ k.isUsable = true))) ∧
    (∀ pair : Rsa.PrimePair, pair.IsFresh →
      a.privateKey.container = (Rsa.PrivateKey.ofPrimes pair).encodeContainer → a.CanSign) := by
  have hread : a.IsRead := by
    rcases h with hload | ⟨hrun, horigin⟩
    · exact isRead_of_load hv hload
    · exact isRead_of_load hv (load_of_recovered hrun horigin)
  refine ⟨fun signer hsigner => hread.verify_of_sign? hsigner, fun k hshort hcontainer => ?_,
    fun pair hpair hcontainer => ?_⟩
  · exact ⟨Authority.signingKey?_of_container hshort hcontainer,
      fun hsound => hread.canSign_iff hshort hcontainer hsound⟩
  · exact (hread.canSign_iff (Rsa.SigningKey.isShort_ofPrimes hpair) hcontainer
      (Rsa.SigningKey.isSound_ofPrimes hpair)).mpr (Rsa.SigningKey.isUsable_ofPrimes hpair)

/-- The second run after a first one that generated. -/
theorem recovered_signs_inStore : ∃ a w₁ w₂, inStore.bootstrap World.untouched = (.ok a, w₁) ∧
    inStore.bootstrap w₁ = (.ok { a with origin := .recovered }, w₂) ∧
    Authority.CanSign { a with origin := .recovered } := by
  obtain ⟨a, w₁, h, horigin⟩ := bootstrap_inStore
  obtain ⟨hs, hfound⟩ := found_of_bootstrap wellFormed_untouched World.isFresh_untouched
    places_inStore.pathsApart h (.refl inStore) fun _ => .inl rfl
  obtain ⟨events, hagain⟩ := bootstrap_of_found hs hfound
  obtain ⟨pair, hhead, hcontainer⟩ := container_of_bootstrap wellFormed_untouched h horigin
  obtain ⟨-, -, hfresh⟩ := recovered_signs rfl (.inr ⟨hagain, rfl⟩)
  exact ⟨a, w₁, _, h, hagain, hfresh pair (World.isFresh_untouched pair hhead) hcontainer⟩

/-! ## 3. A recovered authority that cannot sign -/

/-- A key file as it was written for two primes, but with the last number in it lost. -/
def withoutCoefficient (pair : Rsa.PrimePair) : Rsa.SigningKey :=
  { Rsa.SigningKey.ofKey (.ofPrimes pair) with coefficient := 0 }

theorem isShort_withoutCoefficient {pair : Rsa.PrimePair} (hpair : pair.IsFresh) :
    (withoutCoefficient pair).IsShort := by
  intro n hn
  rcases Nat.eq_zero_or_pos n with rfl | hpos
  · decide
  · refine Rsa.SigningKey.isShort_ofPrimes hpair n ?_
    simp only [Rsa.SigningKey.numbers, withoutCoefficient, Rsa.SigningKey.ofKey, List.mem_cons,
      List.not_mem_nil, or_false, hpos.ne', false_or] at hn ⊢
    tauto

theorem not_isUsable_withoutCoefficient (pair : Rsa.PrimePair) :
    (withoutCoefficient pair).isUsable = false := by
  refine Bool.eq_false_iff.mpr fun h => ?_
  simp only [Rsa.SigningKey.isUsable, Bool.and_eq_true, decide_eq_true_eq] at h
  have hone : 0 * pair.q % pair.p = 1 := h.2
  rw [Nat.zero_mul, Nat.zero_mod] at hone
  cases hone

/-- **A damaged key file is recovered and cannot be signed with**: loading passes over the last
    number in it, so the authority is returned as it is and nothing is regenerated. -/
theorem recovered_without_coefficient : inStore.verifyKeyBinding = true ∧
    ∃ w a w', w.CanMint inStore.identity ∧ inStore.bootstrap w = (.ok a, w') ∧
      a.origin = .recovered ∧ a.signingKey? = none ∧ ¬a.CanSign := by
  obtain ⟨a, pair, t, signed, signature, hpair, hminted⟩ := World.exists_minted_untouched
  have hshort := isShort_withoutCoefficient hpair
  have hunusable := not_isUsable_withoutCoefficient pair
  let damaged : Authority :=
    { a with privateKey := ⟨.ofPrimes pair, (withoutCoefficient pair).encodeContainer⟩ }
  have hkey : StoredKey.ofContainer damaged.privateKey.container = .ok damaged.privateKey :=
    StoredKey.ofContainer_eq_ok_iff.mpr ⟨Rsa.PrivateKey.ofContainer_encodeContainer hshort
      (Rsa.PrivateKey.isValid_ofPrimes hpair), rfl⟩
  have hmatches : damaged.keyMatches = true := by
    have hbefore := hminted.keyMatches
    rw [Authority.keyMatches, hminted.privateKey] at hbefore
    exact hbefore
  -- both files of the first run, the second one damaged
  let files := stored (inStore.locator.prepare World.untouched.files)
    ⟨["store", "ca.der"], none, false⟩ ⟨["store", "caKey.der"], none, false⟩ damaged
  have hfound := found_of_holds (places_inStore.holds damaged) hminted.readBack hkey hmatches
  have hs : inStore.locator.Settled files :=
    places_inStore.settled_stored settled_inStore damaged
  obtain ⟨events, hrun⟩ :=
    bootstrap_of_found (w := { World.untouched with files := files }) hs hfound
  refine ⟨rfl, _, _, _, World.canMint_untouched.report files [], hrun, rfl, ?_, ?_⟩
  · have hsigner := Authority.signingKey?_of_container (a := { damaged with origin := .recovered })
      hshort rfl
    rwa [hunusable] at hsigner
  · exact Authority.not_canSign_of_container hshort rfl hunusable

end Bootstrapper

end RootAuthority
