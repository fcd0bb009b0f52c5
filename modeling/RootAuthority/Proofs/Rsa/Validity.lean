import RootAuthority.Rsa.PrivateKey

/-!
# What the check of a private key asks for

A key passes the check if it is valid (`PrivateKey.IsValid`), and a container is read as a key if it
holds a valid one (`PrivateKey.exists_of_ofContainer`).
-/

namespace RootAuthority.Rsa.PrivateKey

/-- **The parts of a key belong together.** -/
structure IsValid (k : PrivateKey) : Prop where
  bits : Octets.bitLength k.modulus ≤ maxBits
  exponent_lt_modulus : k.publicExponent < k.modulus
  modulus_odd : k.modulus % 2 = 1
  exponent_odd : k.publicExponent % 2 = 1
  two_le_exponent : 2 ≤ k.publicExponent
  exponent_lt : k.publicExponent < 0x2_0000_0000
  one_lt_prime1 : 1 < k.prime1
  one_lt_prime2 : 1 < k.prime2
  modulus_eq : k.prime1 * k.prime2 = k.modulus
  undoes1 : k.publicExponent * k.privateExponent % (k.prime1 - 1) = 1
  undoes2 : k.publicExponent * k.privateExponent % (k.prime2 - 1) = 1

variable {k : PrivateKey} {bs : Octets} {result : Except DecodeError PrivateKey}

theorem isBounded_iff : k.isBounded = true ↔ Octets.bitLength k.modulus ≤ maxBits ∧
    k.publicExponent < k.modulus ∧ k.modulus % 2 = 1 ∧ k.publicExponent % 2 = 1 ∧
    2 ≤ k.publicExponent ∧ k.publicExponent < 0x2_0000_0000 := by
  simp only [isBounded, Bool.and_eq_true, decide_eq_true_eq, and_assoc]

/-- **The check passes exactly the valid keys.** -/
theorem validate_eq_true_iff : k.validate = .ok true ↔ k.IsValid := by
  constructor
  · intro h
    obtain ⟨h1, h2⟩ := one_lt_of_validate h
    unfold validate at h
    rw [undoesAt_eq h1, undoesAt_eq h2] at h
    split at h
    · cases h
    · next hbounded =>
      obtain ⟨hbits, hlt, hodd, heodd, htwo, he⟩ := isBounded_iff.mp (Decidable.not_not.mp hbounded)
      split at h
      · cases h
      · next hprimes =>
        obtain ⟨-, -, hmodulus⟩ := Decidable.not_not.mp hprimes
        change (if decide _ = true then _ else _) = _ at h
        split at h
        · next hundoes1 =>
          exact ⟨hbits, hlt, hodd, heodd, htwo, he, h1, h2, hmodulus, of_decide_eq_true hundoes1,
            of_decide_eq_true (Except.ok.inj h)⟩
        · cases h
  · intro h
    have hbounded := isBounded_iff.mpr ⟨h.bits, h.exponent_lt_modulus, h.modulus_odd,
      h.exponent_odd, h.two_le_exponent, h.exponent_lt⟩
    unfold validate
    rw [if_neg (not_not_intro hbounded),
      if_neg (not_not_intro ⟨h.one_lt_prime1, h.one_lt_prime2, h.modulus_eq⟩),
      undoesAt_eq h.one_lt_prime1, undoesAt_eq h.one_lt_prime2, decide_eq_true h.undoes1,
      decide_eq_true h.undoes2]
    rfl

theorem ofContainer_eq_iff : ofContainer bs = result ↔ decode bs = .ok result :=
  withoutCrash_eq_iff

/-- Octets that are no container hold no key. -/
theorem ofContainer_of_none (h : Container.ofDer? bs = none) :
    ofContainer bs = .error .container := by
  rw [ofContainer_eq_iff, decode, h]

/-- A key that was taken is the one that was there, and valid. -/
theorem of_accept_eq_ok {k' : PrivateKey} (h : k.accept = .ok (.ok k')) : k' = k ∧ k.IsValid := by
  obtain ⟨valid, hvalid⟩ := k.validate_completes
  rw [accept_eq hvalid] at h
  cases valid with
  | false => cases h
  | true =>
    obtain rfl := Except.ok.inj (Except.ok.inj h)
    exact ⟨rfl, validate_eq_true_iff.mp hvalid⟩

theorem accept_of_isValid (h : k.IsValid) : k.accept = .ok (.ok k) :=
  accept_eq (validate_eq_true_iff.mpr h)

/-- Whatever is wrong with a key, it is not its algorithm. -/
theorem accept_ne_notRsa {algorithm : String} : k.accept ≠ .ok (.error (.notRsa algorithm)) := by
  obtain ⟨valid, hvalid⟩ := k.validate_completes
  rw [accept_eq hvalid]
  cases valid with
  | false => exact nofun
  | true => exact nofun

/-- **A container for another algorithm** is told apart from all else that can be wrong with a key,
    whatever it holds. -/
theorem ofContainer_eq_notRsa_iff {algorithm : String} :
    ofContainer bs = .error (.notRsa algorithm) ↔ ∃ c, Container.ofDer? bs = some c ∧
      c.algorithm ≠ Der.ObjectId.rsaEncryption ∧
      (Der.ObjectId.dotted? c.algorithm).getD "" = algorithm := by
  rw [ofContainer_eq_iff, decode]
  cases hcontainer : Container.ofDer? bs with
  | none => exact ⟨nofun, fun ⟨_, h, _⟩ => nomatch h⟩
  | some c =>
    dsimp only
    by_cases hother : c.algorithm ≠ Der.ObjectId.rsaEncryption
    · rw [if_pos hother]
      constructor
      · intro h
        exact ⟨c, rfl, hother, DecodeError.notRsa.inj (Except.error.inj (Except.ok.inj h))⟩
      · intro h
        rcases h with ⟨c', hc', -, rfl⟩
        obtain rfl := Option.some.inj hc'
        rfl
    · rw [if_neg hother]
      constructor
      · intro h
        -- no other refusal names an algorithm
        split at h
        · cases h
        · split at h
          · exact (accept_ne_notRsa h).elim
          · cases h
      · intro h
        rcases h with ⟨c', hc', hother', -⟩
        obtain rfl := Option.some.inj hc'
        exact (hother hother').elim

/-- A key that was loaded is valid, and spelled by the octets that its container holds. -/
theorem exists_of_ofContainer (h : ofContainer bs = .ok k) :
    ∃ c, Container.ofDer? bs = some c ∧ ofDer? c.key = some k ∧ k.IsValid := by
  have hdecode := ofContainer_eq_iff.mp h
  unfold decode at hdecode
  split at hdecode
  · cases hdecode
  · next c hc =>
    split at hdecode
    · cases hdecode
    · split at hdecode
      · cases hdecode
      · split at hdecode
        · next k' hread =>
          obtain ⟨rfl, hvalid⟩ := of_accept_eq_ok hdecode
          exact ⟨c, hc, hread, hvalid⟩
        · cases hdecode

end RootAuthority.Rsa.PrivateKey
