import RootAuthority.Proofs.Calendar.Limits
import RootAuthority.Proofs.Mint

/-!
# Where minting crashes

Minting gives an authority or a reason for most clocks that can be read, but not for all. On the
last day of the calendar the year to come is looked for on a day that does not exist, and from the
second year on up to year 0 the first end of the validity has no written form. Both are crashes.
In the rest of the first and the last year minting is refused, as it should be.

* `Template.mintedAt_fails`: why there is no template.
* `Authority.MintFails`: how minting for a fresh key fails, one rule for each way.
* `World.mint_outcome`: by the calendar, which clocks lead to which outcome.
-/

namespace RootAuthority

/-! ## 1. Templates -/

namespace Template

variable {identity : Identity} {serial : Nat} {key : Rsa.PublicKey} {now : Instant} {t : Template}
  {failure : MintFailure}

/-- A list of ASCII names is not searched with success. -/
theorem find?_names_eq_none :
    identity.dnsNames.find? (!isAscii ·) = none ↔
      ∀ name ∈ identity.dnsNames, isAscii name = true := by
  simp [List.find?_eq_none]

/-- A DNS name that is not ASCII is refused at every time. -/
theorem mintedAt_of_name (hnow : now.Representable) {name : String}
    (hname : identity.dnsNames.find? (!isAscii ·) = some name) :
    mintedAt identity serial key now = .error (.refused (.dnsName name)) := by
  unfold mintedAt
  rw [if_neg (not_not_intro hnow)]
  simp only [hname]
  rfl

/-- **Why there is no template** for ASCII names: one end of the validity is missing, the first one
    being looked for first. -/
theorem mintedAt_eq_error_iff (hnow : now.Representable)
    (hnames : ∀ name ∈ identity.dnsNames, isAscii name = true) :
    mintedAt identity serial key now = .error failure ↔
      ∃ e, .ofShift e = failure ∧ (now.shiftYears (-1) = .error e ∨
        (∃ notBefore, now.shiftYears (-1) = .ok notBefore) ∧ now.shiftYears 1 = .error e) := by
  unfold mintedAt
  rw [if_neg (not_not_intro hnow)]
  simp only [find?_names_eq_none.mpr hnames, bind_eq_error_iff, mapError_eq_error_iff,
    mapError_eq_ok_iff]
  constructor
  · rintro (⟨e, hb, rfl⟩ | ⟨notBefore, hb, ⟨e, ha, rfl⟩ | ⟨_, _, hpure⟩⟩)
    · exact ⟨e, rfl, .inl hb⟩
    · exact ⟨e, rfl, .inr ⟨⟨notBefore, hb⟩, ha⟩⟩
    · cases hpure
  · rintro ⟨e, rfl, hb | ⟨⟨notBefore, hb⟩, ha⟩⟩
    · exact .inl ⟨e, hb, rfl⟩
    · exact .inr ⟨notBefore, hb, .inl ⟨e, ha, rfl⟩⟩

/-- **Which clocks have no template**: those of the first and of the last year. The last day is the
    one on which the search for the end of the validity crashes. -/
theorem mintedAt_fails_iff (hnow : now.Representable)
    (hnames : ∀ name ∈ identity.dnsNames, isAscii name = true) :
    mintedAt identity serial key now = .error failure ↔
      (now.year = -9999 ∨ now.year = 9999) ∧
        failure = if now.civil.date = Date.last then .crashed .noNextDay
          else .refused .windowOutOfRange := by
  have hyears := (Instant.representable_iff now).mp hnow
  rw [mintedAt_eq_error_iff hnow hnames]
  simp only [Instant.shiftYears_eq_error_iff hnow, Instant.shiftYears_isOk_iff hnow]
  constructor
  · rintro ⟨e, rfl, hend⟩
    have he : e = if now.civil.date = Date.last then .noNextDay else .yearOutOfRange := by
      rcases hend with ⟨-, he⟩ | ⟨-, -, he⟩
      · exact he
      · exact he
    refine ⟨by omega, ?_⟩
    rw [he, apply_ite MintFailure.ofShift]
    rfl
  · rintro ⟨hyear, rfl⟩
    refine ⟨if now.civil.date = Date.last then .noNextDay else .yearOutOfRange, ?_, ?_⟩
    · rw [apply_ite MintFailure.ofShift]
      rfl
    · rcases hyear with hfirst | hlast
      · exact .inl ⟨by omega, rfl⟩
      · exact .inr ⟨by omega, by omega, rfl⟩

/-- The year before year 0 is the last one that has no written form. -/
theorem encodeSigned?_eq_none_iff (h : mintedAt identity serial key now = .ok t) :
    t.encodeSigned? = none ↔ now.year ≤ 0 := by
  obtain ⟨-, -, notBefore, notAfter, hb, ha, rfl⟩ := mintedAt_eq_ok_iff.mp h
  have hfirst := (Instant.year_of_shiftYears hb).1
  have hlast := (Instant.year_of_shiftYears ha).1
  constructor
  · intro hnone
    refine Int.not_lt.mp fun hyear => ?_
    obtain ⟨signed, hsigned⟩ := encodeSigned?_isSome (t := ⟨serial, identity, notBefore.secs,
      notAfter.secs, key, Digest.sha1 key.encodeInfo⟩) (show 0 ≤ notBefore.year by omega)
      (show 0 ≤ notAfter.year by omega)
    rw [hnone] at hsigned
    cases hsigned
  · intro hyear
    have hnone : Validity.encodeTime notBefore.secs = none :=
      if_pos (show notBefore.year < 0 by omega)
    unfold encodeSigned?
    simp only [hnone, Option.bind_eq_bind, Option.bind_none]

end Template

/-! ## 2. Authorities -/

namespace Authority

variable {identity : Identity} {serial : Nat} {key : Rsa.PrivateKey} {pair : Rsa.PrimePair}
  {now : Instant} {failure : MintFailure}

/-- **How minting for a fresh key fails**: there is no template, its signed part cannot be written,
    or what was written and signed cannot be read back. -/
inductive MintFails (identity : Identity) (serial : Nat) (key : Rsa.PrivateKey) (now : Instant) :
    MintFailure → Prop
  | template {failure : MintFailure}
      (h : Template.mintedAt identity serial key.publicKey now = .error failure) :
      MintFails identity serial key now failure
  | writing {t : Template} (ht : Template.mintedAt identity serial key.publicKey now = .ok t)
      (h : t.encodeSigned? = none) : MintFails identity serial key now (.crashed .yearBeforeZero)
  | reading {t : Template} {signed signature : Octets} {cause : DecodeError}
      (ht : Template.mintedAt identity serial key.publicKey now = .ok t)
      (hsigned : t.encodeSigned? = some signed)
      (h : Certificate.ofDer (Template.encodeCertificate signed signature) = .error cause) :
      MintFails identity serial key now (.refused (.unreadable cause))

theorem mint_fails (hpair : pair.IsFresh)
    (h : mint identity serial (.ofPrimes pair) now = .error failure) :
    MintFails identity serial (.ofPrimes pair) now failure := by
  unfold mint at h
  rcases bind_eq_error_iff.mp h with h | ⟨t, ht, h⟩
  · exact .template h
  · simp only [StoredKey.ofKey, signer_ofPrimes hpair] at h
    cases hsigned : t.encodeSigned? with
    | none =>
      simp only [hsigned] at h
      cases h
      exact .writing ht hsigned
    | some signed =>
      obtain ⟨signature, hsignature, -⟩ := Rsa.SigningKey.sign?_isSome
        (Rsa.SigningKey.isSound_ofPrimes hpair) (room_ofPrimes hpair) signed
      simp only [hsigned, hsignature] at h
      split at h
      · cases h
      · next hc =>
        cases h
        exact .reading ht hsigned hc

theorem mint_of_template
    (h : Template.mintedAt identity serial key.publicKey now = .error failure) :
    mint identity serial key now = .error failure :=
  bind_eq_error_iff.mpr (.inl h)

theorem mint_of_writing {t : Template} (hpair : pair.IsFresh)
    (ht : Template.mintedAt identity serial (Rsa.PrivateKey.ofPrimes pair).publicKey now = .ok t)
    (h : t.encodeSigned? = none) :
    mint identity serial (.ofPrimes pair) now = .error (.crashed .yearBeforeZero) := by
  refine bind_eq_error_iff.mpr (.inr ⟨t, ht, ?_⟩)
  simp only [StoredKey.ofKey, signer_ofPrimes hpair, h]
  rfl

/-- **When minting for a fresh key crashes**, for ASCII names: on the last day, and where the
    validity would begin before year 0. -/
theorem mint_crashed_iff {crash : Crash} (hpair : pair.IsFresh) (hnow : now.Representable)
    (hnames : ∀ name ∈ identity.dnsNames, isAscii name = true) :
    mint identity serial (.ofPrimes pair) now = .error (.crashed crash) ↔
      crash = .noNextDay ∧ now.civil.date = Date.last ∨
      crash = .yearBeforeZero ∧ -9998 ≤ now.year ∧ now.year ≤ 0 := by
  constructor
  · intro h
    cases mint_fails hpair h with
    | template htemplate =>
      obtain ⟨-, hfailure⟩ := (Template.mintedAt_fails_iff hnow hnames).mp htemplate
      split at hfailure
      · next hdate =>
        cases hfailure
        exact .inl ⟨rfl, hdate⟩
      · cases hfailure
    | writing ht hnone =>
      have hyear := (Template.encodeSigned?_eq_none_iff ht).mp hnone
      have hfirst := (Instant.representable_iff now).mp hnow
      refine .inr ⟨rfl, Int.not_lt.mp fun hlt => ?_, hyear⟩
      -- in the first year there is no template in the first place
      have herror : Template.mintedAt identity serial (Rsa.PrivateKey.ofPrimes pair).publicKey now
          = .error _ := (Template.mintedAt_fails_iff hnow hnames).mpr ⟨.inl (by omega), rfl⟩
      rw [ht] at herror
      cases herror
  · rintro (⟨rfl, hdate⟩ | ⟨rfl, hlo, hhi⟩)
    · refine mint_of_template ((Template.mintedAt_fails_iff hnow hnames).mpr ⟨.inr ?_, ?_⟩)
      · rw [Instant.year, hdate]
        rfl
      · rw [if_pos hdate]
    · cases ht : Template.mintedAt identity serial (Rsa.PrivateKey.ofPrimes pair).publicKey now with
      | ok t => exact mint_of_writing hpair ht ((Template.encodeSigned?_eq_none_iff ht).mpr hhi)
      | error failure =>
        have hyear := ((Template.mintedAt_fails_iff hnow hnames).mp ht).1
        omega

/-- **When minting for a fresh key is refused for the validity**, for ASCII names: in the first year
    and on all but the last day of the last one. -/
theorem mint_windowOutOfRange_iff (hpair : pair.IsFresh) (hnow : now.Representable)
    (hnames : ∀ name ∈ identity.dnsNames, isAscii name = true) :
    mint identity serial (.ofPrimes pair) now = .error (.refused .windowOutOfRange) ↔
      now.year = -9999 ∨ now.year = 9999 ∧ now.civil.date ≠ Date.last := by
  have hlast : now.civil.date = Date.last → now.year = 9999 := fun hdate => congrArg Date.year hdate
  constructor
  · intro h
    cases mint_fails hpair h with
    | template htemplate =>
      obtain ⟨hyear, hfailure⟩ := (Template.mintedAt_fails_iff hnow hnames).mp htemplate
      split at hfailure
      · cases hfailure
      · next hdate => exact hyear.imp_right fun hyear => ⟨hyear, hdate⟩
  · intro hyear
    have hdate : now.civil.date ≠ Date.last := by
      rcases hyear with hfirst | ⟨-, hdate⟩
      · intro hdate
        have := hlast hdate
        omega
      · exact hdate
    refine mint_of_template ((Template.mintedAt_fails_iff hnow hnames).mpr ⟨?_, ?_⟩)
    · exact hyear.imp_right And.left
    · rw [if_neg hdate]

end Authority

/-! ## 3. The world -/

namespace World

variable {w : World} {identity : Identity}

/-- There is a serial number and a pair of primes, and the DNS names can be written. -/
structure Supplied (w : World) (identity : Identity) : Prop where
  serial : w.serials.current < maxSerial
  primes : w.primes ≠ []
  names : ∀ name ∈ identity.dnsNames, isAscii name = true

/-- With the supplies at hand the outcome is that of minting with the next of them. -/
theorem mint_of_supplied (hprimes : ∀ pair ∈ w.primes.head?, pair.IsFresh)
    (h : w.Supplied identity) : ∃ pair, pair.IsFresh ∧ (w.mint identity).1
      = Authority.mint identity (w.serials.current + 1) (.ofPrimes pair) w.clock := by
  have hhead := List.head?_eq_some_head h.primes
  exact ⟨_, hprimes _ hhead, mint_result h.serial hhead⟩

/-- A DNS name that is not ASCII is refused where nothing else is missing. -/
theorem mint_of_name (hclock : w.clock.Representable) (hserial : w.serials.current < maxSerial)
    (hprimes : w.primes ≠ []) {name : String}
    (hname : identity.dnsNames.find? (!isAscii ·) = some name) :
    (w.mint identity).1 = .error (.refused (.dnsName name)) := by
  rw [mint_result hserial (List.head?_eq_some_head hprimes)]
  exact Authority.mint_of_template (Template.mintedAt_of_name hclock hname)

/-- **Without the supplies minting is refused** at every time, for the supply that is missing. -/
theorem mint_of_not_supplied (hclock : w.clock.Representable) (h : ¬w.Supplied identity) :
    ∃ cause, (w.mint identity).1 = .error (.refused cause) ∧
      (cause = .serialsExhausted ∨ cause = .keysExhausted ∨ ∃ name, cause = .dnsName name) := by
  by_cases hserial : w.serials.current < maxSerial
  · by_cases hprimes : w.primes = []
    · unfold mint
      simp only [SerialSource.next_of_lt hserial, hprimes]
      exact ⟨_, rfl, .inr (.inl rfl)⟩
    · cases hfind : identity.dnsNames.find? (!isAscii ·) with
      | none => exact absurd ⟨hserial, hprimes, Template.find?_names_eq_none.mp hfind⟩ h
      | some name =>
        exact ⟨_, mint_of_name hclock hserial hprimes hfind, .inr (.inr ⟨name, rfl⟩)⟩
  · unfold mint
    simp only [SerialSource.next_of_not_lt hserial]
    exact ⟨_, rfl, .inl rfl⟩

/-- **The outcome of minting by the calendar**, for fresh primes and every time that can be read.
    Minting crashes, if the supplies are there, on the last day of the last year and in the years
    -9998 to 0, and at no other time. In the first year and on the other days of the last one it is
    refused because the validity cannot be written. In all other years there is an authority, if the
    texts of the identity fit into memory. -/
theorem mint_outcome (hprimes : ∀ pair ∈ w.primes.head?, pair.IsFresh)
    (hclock : w.clock.Representable) :
    (∀ crash, (w.mint identity).1 = .error (.crashed crash) ↔ w.Supplied identity ∧
      (crash = .noNextDay ∧ w.clock.civil.date = Date.last ∨
        crash = .yearBeforeZero ∧ -9998 ≤ w.clock.year ∧ w.clock.year ≤ 0)) ∧
    ((w.mint identity).1 = .error (.refused .windowOutOfRange) ↔ w.Supplied identity ∧
      (w.clock.year = -9999 ∨ w.clock.year = 9999 ∧ w.clock.civil.date ≠ Date.last)) ∧
    (w.Supplied identity → identity.size < 2 ^ 62 → 1 ≤ w.clock.year → w.clock.year ≤ 9998 →
      ∃ a, (w.mint identity).1 = .ok a) := by
  by_cases h : w.Supplied identity
  · obtain ⟨pair, hpair, hmint⟩ := mint_of_supplied hprimes h
    simp only [hmint, h, true_and, true_implies]
    refine ⟨fun crash => Authority.mint_crashed_iff hpair hclock h.names,
      Authority.mint_windowOutOfRange_iff hpair hclock h.names, fun hsize hlo hhi => ?_⟩
    exact Authority.mint_succeeds hpair h.names hlo hhi hsize (SerialSource.width_succ_le h.serial)
  · obtain ⟨cause, hmint, hcause⟩ := mint_of_not_supplied hclock h
    have hne : cause ≠ .windowOutOfRange := by
      rintro rfl
      rcases hcause with hcause | hcause | ⟨_, hcause⟩ <;> cases hcause
    simp only [hmint, h, false_and, false_implies, and_true, iff_false]
    refine ⟨fun crash hcrash => ?_, fun hrefused => hne ?_⟩
    · cases hcrash
    · cases hrefused
      rfl

/-- The last moment that can be read. -/
def lastMoment : World := { untouched with clock := ⟨Instant.lastSecond, 999999999⟩ }

/-- **At the last moment of the calendar minting crashes**: the day after it is needed. -/
theorem mint_outcome_lastMoment : (∀ pair ∈ lastMoment.primes.head?, pair.IsFresh) ∧
    lastMoment.clock.Representable ∧
    (lastMoment.mint .default).1 = .error (.crashed .noNextDay) := by
  have hfresh : ∀ pair ∈ lastMoment.primes.head?, pair.IsFresh := isFresh_untouched
  have hclock : lastMoment.clock.Representable := by decide
  have hdate : lastMoment.clock.civil.date = Date.last := by decide +kernel
  have hsupplied : lastMoment.Supplied .default :=
    ⟨canMint_untouched.serial, List.cons_ne_nil _ _, canMint_untouched.names⟩
  exact ⟨hfresh, hclock,
    ((mint_outcome hfresh hclock).1 .noNextDay).mpr ⟨hsupplied, .inl ⟨rfl, hdate⟩⟩⟩

end World

end RootAuthority
