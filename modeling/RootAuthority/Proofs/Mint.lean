import RootAuthority.Proofs.Certificate.Length
import RootAuthority.Proofs.Rsa.Existence
import RootAuthority.Proofs.Rsa.Loaded
import RootAuthority.World

/-!
# What a minted authority is

* `Authority.mint_eq_ok_iff`: when minting succeeds, and with what.
* `Authority.Minted`: the certificate of a minted authority is the one that a template with the
  public half of its key stands for, signed by that key.
* `World.template_of_mint`: which template that is.
* `Authority.mint_succeeds`: minting for a fresh key succeeds at every time of the years 1 to 9998.
-/

namespace RootAuthority

section Except

variable {ε ε' α β : Type}

theorem bind_eq_ok_iff {x : Except ε α} {f : α → Except ε β} {b : β} :
    (x >>= f) = .ok b ↔ ∃ a, x = .ok a ∧ f a = .ok b := by
  cases x with
  | ok a => simp [bind, Except.bind]
  | error e => simp [bind, Except.bind]

theorem bind_eq_error_iff {x : Except ε α} {f : α → Except ε β} {e : ε} :
    (x >>= f) = .error e ↔ x = .error e ∨ ∃ a, x = .ok a ∧ f a = .error e := by
  cases x with
  | ok a => simp [bind, Except.bind]
  | error e => simp [bind, Except.bind]

theorem mapError_eq_ok_iff {x : Except ε α} {f : ε → ε'} {a : α} :
    x.mapError f = .ok a ↔ x = .ok a := by
  cases x with
  | ok b => simp [Except.mapError]
  | error e => simp [Except.mapError]

theorem mapError_eq_error_iff {x : Except ε α} {f : ε → ε'} {e' : ε'} :
    x.mapError f = .error e' ↔ ∃ e, x = .error e ∧ f e = e' := by
  cases x with
  | ok b => simp [Except.mapError]
  | error e => simp [Except.mapError]

end Except

/-! ## 1. Templates -/

namespace Template

variable {identity : Identity} {serial : Nat} {key : Rsa.PublicKey} {now : Instant} {t : Template}

/-- **When there is a template**, and which one. -/
theorem mintedAt_eq_ok_iff : mintedAt identity serial key now = .ok t ↔
    now.Representable ∧ identity.dnsNames.find? (!isAscii ·) = none ∧
      ∃ notBefore notAfter, now.shiftYears (-1) = .ok notBefore ∧ now.shiftYears 1 = .ok notAfter ∧
        t = ⟨serial, identity, notBefore.secs, notAfter.secs, key,
          Digest.sha1 key.encodeInfo⟩ := by
  unfold mintedAt
  by_cases hnow : now.Representable
  · rw [if_neg (not_not_intro hnow)]
    cases hfind : identity.dnsNames.find? (!isAscii ·) with
    | some name => simp [bind_eq_ok_iff, throw, throwThe, MonadExceptOf.throw]
    | none =>
      simp only [bind_eq_ok_iff, mapError_eq_ok_iff, pure, Except.pure, Except.ok.injEq, hnow,
        true_and]
      constructor
      · rintro ⟨notBefore, hb, notAfter, ha, rfl⟩
        exact ⟨notBefore, notAfter, hb, ha, rfl⟩
      · rintro ⟨notBefore, notAfter, hb, ha, rfl⟩
        exact ⟨notBefore, hb, notAfter, ha, rfl⟩
  · simp [hnow, bind_eq_ok_iff, throw, throwThe, MonadExceptOf.throw]

/-- A template says what it was made from, and is valid in years that can be written. -/
theorem mintedAt_ok (h : mintedAt identity serial key now = .ok t) :
    t.identity = identity ∧ t.serial = serial ∧ t.publicKey = key ∧
      t.keyId = Digest.sha1 key.encodeInfo ∧ t.YearsFit := by
  obtain ⟨-, -, notBefore, notAfter, hb, ha, rfl⟩ := mintedAt_eq_ok_iff.mp h
  obtain ⟨hyear, -, hle⟩ := Instant.year_of_shiftYears hb
  obtain ⟨hyear', -, hle'⟩ := Instant.year_of_shiftYears ha
  exact ⟨rfl, rfl, rfl, rfl, Int.le_trans (Int.le_of_eq hyear) hle,
    Int.le_trans (Int.le_of_eq hyear') hle'⟩

/-- The signed part can be written if both ends of the validity fall in year 0 or later. -/
theorem encodeSigned?_isSome (hb : 0 ≤ (CivilTime.ofSeconds t.notBefore).date.year)
    (ha : 0 ≤ (CivilTime.ofSeconds t.notAfter).date.year) :
    ∃ signed, t.encodeSigned? = some signed := by
  obtain ⟨first, hfirst⟩ := Validity.encodeTime_isSome hb
  obtain ⟨last, hlast⟩ := Validity.encodeTime_isSome ha
  simp only [encodeSigned?, hfirst, hlast, Option.bind_eq_bind, Option.bind_some, Option.pure_def]
  exact ⟨_, rfl⟩

/-- **There is a template** at every time of the years 1 to 9998, and its signed part can be
    written. -/
theorem mintedAt_succeeds (serial : Nat) (key : Rsa.PublicKey)
    (hnames : ∀ name ∈ identity.dnsNames, isAscii name = true) (hlo : 1 ≤ now.year)
    (hhi : now.year ≤ 9998) :
    ∃ t signed, mintedAt identity serial key now = .ok t ∧ t.encodeSigned? = some signed := by
  have hfind : identity.dnsNames.find? (!isAscii ·) = none := by
    rw [List.find?_eq_none]
    intro name hname
    simp [hnames name hname]
  obtain ⟨notBefore, hb⟩ := Instant.shiftYears_ok (t := now) (k := -1) (by omega) (by omega)
    (by omega)
  obtain ⟨notAfter, ha⟩ := Instant.shiftYears_ok (t := now) (k := 1) (by omega) (by omega)
    (by omega)
  have hyear := (Instant.year_of_shiftYears hb).1
  have hyear' := (Instant.year_of_shiftYears ha).1
  obtain ⟨signed, hsigned⟩ := encodeSigned?_isSome (t := ⟨serial, identity, notBefore.secs,
    notAfter.secs, key, Digest.sha1 key.encodeInfo⟩) (show 0 ≤ notBefore.year by omega)
    (show 0 ≤ notAfter.year by omega)
  have hnow := (Instant.representable_iff now).mpr ⟨by omega, by omega⟩
  exact ⟨_, signed, mintedAt_eq_ok_iff.mpr ⟨hnow, hfind, notBefore, notAfter, hb, ha, rfl⟩, hsigned⟩

end Template

/-! ## 2. Authorities -/

namespace Authority

variable {identity : Identity} {serial : Nat} {key : Rsa.PrivateKey} {now : Instant} {a : Authority}

/-- **When minting succeeds**, and what comes out. -/
theorem mint_eq_ok_iff : mint identity serial key now = .ok a ↔
    ∃ t signer signed signature certificate,
      Template.mintedAt identity serial key.publicKey now = .ok t ∧
      Rsa.SigningKey.ofContainer? key.encodeContainer = some signer ∧
      t.encodeSigned? = some signed ∧ signer.sign? signed = some signature ∧
      Certificate.ofDer (Template.encodeCertificate signed signature) = .ok certificate ∧
      a = ⟨certificate, .ofKey key, .generated⟩ := by
  simp only [mint, bind_eq_ok_iff, StoredKey.ofKey]
  constructor
  · rintro ⟨t, ht, h⟩
    cases hsigner : Rsa.SigningKey.ofContainer? key.encodeContainer with
    | none => simp [hsigner, throw, throwThe, MonadExceptOf.throw] at h
    | some signer =>
      simp only [hsigner] at h
      cases hsigned : t.encodeSigned? with
      | none => simp [hsigned, throw, throwThe, MonadExceptOf.throw] at h
      | some signed =>
        simp only [hsigned] at h
        cases hsignature : signer.sign? signed with
        | none => simp [hsignature, throw, throwThe, MonadExceptOf.throw] at h
        | some signature =>
          simp only [hsignature] at h
          cases hc : Certificate.ofDer (Template.encodeCertificate signed signature) with
          | error e => simp [hc, throw, throwThe, MonadExceptOf.throw] at h
          | ok certificate =>
            simp only [hc] at h
            exact ⟨t, signer, signed, signature, certificate, ht, rfl, hsigned, hsignature, hc,
              (Except.ok.inj h).symm⟩
  · rintro ⟨t, signer, signed, signature, certificate, ht, hsigner, hsigned, hsignature, hc, rfl⟩
    refine ⟨t, ht, ?_⟩
    simp only [hsigner, hsigned, hsignature, hc]
    rfl

/-- What comes out of minting: a certificate that says what a template says about the key, with a
    signature by the key itself. -/
structure Minted (a : Authority) (key : Rsa.PrivateKey) (t : Template) (signed signature : Octets) :
    Prop where
  publicKey : t.publicKey = key.publicKey
  encoded : t.encodeSigned? = some signed
  signedWithKey : ∃ signer, Rsa.SigningKey.ofContainer? key.encodeContainer = some signer ∧
    signer.sign? signed = some signature
  certificate : a.certificate = t.certificate signed signature
  readBack : Certificate.ofDer a.certificate.der = .ok a.certificate
  privateKey : a.privateKey = .ofKey key
  origin : a.origin = .generated

/-- **What a minted authority is**, and which template it was minted from. -/
theorem template_of_mint (h : mint identity serial key now = .ok a) :
    ∃ t signed signature, Template.mintedAt identity serial key.publicKey now = .ok t ∧
      a.Minted key t signed signature := by
  obtain ⟨t, signer, signed, signature, certificate, ht, hsigner, hsigned, hsignature, hc, rfl⟩ :=
    mint_eq_ok_iff.mp h
  obtain ⟨-, -, hkey, -, hyears⟩ := Template.mintedAt_ok ht
  obtain rfl := Certificate.eq_of_ofDer_encodeCertificate hsigned hyears hc
  exact ⟨t, signed, signature, ht,
    { publicKey := hkey
      encoded := hsigned
      signedWithKey := ⟨signer, hsigner, hsignature⟩
      certificate := rfl
      readBack := hc
      privateKey := rfl
      origin := rfl }⟩

/-! ## 3. Fresh keys -/

variable {pair : Rsa.PrimePair}

/-- The modulus of a fresh pair leaves room for a padded digest. -/
theorem room_ofPrimes (hpair : pair.IsFresh) :
    62 ≤ Octets.width (Rsa.PrivateKey.ofPrimes pair).modulus := by
  rw [Rsa.PrivateKey.width_ofPrimes hpair]
  decide

/-- The key of a fresh pair is read from its container as it was written. -/
theorem signer_ofPrimes (hpair : pair.IsFresh) :
    Rsa.SigningKey.ofContainer? (Rsa.PrivateKey.ofPrimes pair).encodeContainer
      = some (.ofKey (.ofPrimes pair)) := by
  have hread := Rsa.SigningKey.ofContainer?_encodeContainer (Rsa.SigningKey.isShort_ofPrimes hpair)
  rwa [if_pos (Rsa.SigningKey.isUsable_ofPrimes hpair)] at hread

/-- **Minting for a fresh key succeeds** at every time of the years 1 to 9998, if the texts of the
    identity fit into memory. -/
theorem mint_succeeds (hpair : pair.IsFresh)
    (hnames : ∀ name ∈ identity.dnsNames, isAscii name = true) (hlo : 1 ≤ now.year)
    (hhi : now.year ≤ 9998) (hsize : identity.size < 2 ^ 62) (hserial : Octets.width serial ≤ 8) :
    ∃ a, mint identity serial (.ofPrimes pair) now = .ok a := by
  have hwidth := Rsa.PrivateKey.width_ofPrimes hpair
  obtain ⟨t, signed, ht, hsigned⟩ := Template.mintedAt_succeeds serial
    (Rsa.PrivateKey.ofPrimes pair).publicKey hnames hlo hhi
  obtain ⟨hidentity, hnumber, hkey, hid, hyears⟩ := Template.mintedAt_ok ht
  obtain ⟨signature, hsignature, hlength⟩ := Rsa.SigningKey.sign?_isSome
    (Rsa.SigningKey.isSound_ofPrimes hpair) (room_ofPrimes hpair) signed
  have hmodest : t.IsModest :=
    { years := hyears
      serial := hnumber ▸ hserial
      keyId := by rw [hid]; exact Digest.length_sha1 _
      publicKey := hkey ▸ Rsa.PublicKey.length_encodeInfo_le
        (Rsa.PublicKey.isReadable_of_isValid (Rsa.PrivateKey.isValid_ofPrimes hpair)) }
  have hshort : signature.length ≤ 1000 :=
    Nat.le_trans (Nat.le_of_eq (hlength.trans hwidth)) (by decide)
  have hfit := Template.contentsFit hsigned hmodest (hidentity ▸ hsize) hshort
  exact ⟨_, mint_eq_ok_iff.mpr ⟨t, _, signed, _, _, ht, signer_ofPrimes hpair, hsigned, hsignature,
    Certificate.ofDer_encodeCertificate hsigned hyears hfit, rfl⟩⟩

/-! ## 4. Signatures -/

/-- **A signature by a fresh key holds under its public half as it is embedded in certificates.** -/
theorem verify_of_signer (hpair : pair.IsFresh) {message signature : Octets}
    (h : (Rsa.SigningKey.ofKey (.ofPrimes pair)).sign? message = some signature) :
    SignatureScheme.verify (.rsa .sha256 2048) (Rsa.PrivateKey.ofPrimes pair).publicKey.encode
      message signature = true := by
  have hkey : (Rsa.SigningKey.ofKey (.ofPrimes pair)).key = .ofPrimes pair := rfl
  have hvalid := Rsa.PrivateKey.isValid_ofPrimes hpair
  rw [← hkey] at hvalid ⊢
  exact Rsa.SigningKey.verify_of_isUsable hvalid (Rsa.SigningKey.isUsable_ofPrimes hpair) h

/-- **The signature of a minted certificate** holds under the key embedded in it. -/
theorem Minted.verify_signature {t : Template} {signed signature : Octets} (hpair : pair.IsFresh)
    (h : a.Minted (.ofPrimes pair) t signed signature) :
    SignatureScheme.verify (.rsa .sha256 2048) a.certificate.publicKey.key a.certificate.signed
      a.certificate.signature = true := by
  obtain ⟨signer, hsigner, hsignature⟩ := h.signedWithKey
  rw [signer_ofPrimes hpair] at hsigner
  obtain rfl := Option.some.inj hsigner
  have hverify := verify_of_signer hpair hsignature
  rw [← h.publicKey] at hverify
  rw [h.certificate]
  exact hverify

/-- **A minted authority is self-signed**: it is its own issuer, and its signature holds. -/
theorem Minted.isSelfSigned {t : Template} {signed signature : Octets} (hpair : pair.IsFresh)
    (h : a.Minted (.ofPrimes pair) t signed signature) : a.certificate.isSelfSigned = true := by
  have hverify := h.verify_signature hpair
  rw [h.certificate] at hverify ⊢
  have hscheme (key : Algorithm) : SignatureScheme.of? .sha256WithRsa key
      = some (.rsa .sha256 2048) := rfl
  simp only [Certificate.isSelfSigned, Certificate.signedBy, Template.certificate, hscheme,
    Bool.and_eq_true, decide_eq_true_eq, true_and]
  exact hverify

end Authority

/-! ## 5. The world -/

/-- A number that was drawn is the next one, and there was one left. -/
theorem SerialSource.next_eq_some {s s' : SerialSource} {serial : Nat}
    (h : s.next = (some serial, s')) : s.current < maxSerial ∧ serial = s.current + 1 := by
  unfold next at h
  split at h
  · next hlt =>
    obtain ⟨hdrawn, -⟩ := Prod.mk.inj h
    exact ⟨hlt, (Option.some.inj hdrawn).symm⟩
  · cases h

/-- A number that is left to draw fits into eight octets. -/
theorem SerialSource.width_succ_le {s : SerialSource} (h : s.current < maxSerial) :
    Octets.width (s.current + 1) ≤ 8 :=
  Octets.width_le (Nat.lt_of_le_of_lt h (by decide))

namespace World

variable {w w' : World} {identity : Identity} {a : Authority}

/-- **What minting takes from the world**: a serial number and two primes. -/
theorem mint_ok (h : w.mint identity = (.ok a, w')) :
    ∃ serial serials pair primes, w.serials.next = (some serial, serials) ∧
      w.primes = pair :: primes ∧ Authority.mint identity serial (.ofPrimes pair) w.clock = .ok a := by
  unfold mint at h
  split at h
  · cases h
  · next serial serials hserial =>
    dsimp only at h
    split at h
    · cases h
    · next pair primes hprimes =>
      split at h
      · cases h
      · next authority hmint =>
        obtain ⟨ha, rfl⟩ := Prod.mk.inj h
        obtain rfl := Except.ok.inj ha
        exact ⟨serial, serials, pair, primes, hserial, hprimes, hmint⟩

/-- **The result of minting in a world** is that of minting with the next serial number and the next
    two primes, where there are any. -/
theorem mint_result {pair : Rsa.PrimePair} (hserial : w.serials.current < maxSerial)
    (hpair : w.primes.head? = some pair) : (w.mint identity).1
      = Authority.mint identity (w.serials.current + 1) (.ofPrimes pair) w.clock := by
  obtain ⟨primes, hprimes⟩ := List.head?_eq_some_iff.mp hpair
  unfold mint
  simp only [SerialSource.next_of_lt hserial, hprimes]
  cases Authority.mint identity (w.serials.current + 1) (.ofPrimes pair) w.clock with
  | error failure => rfl
  | ok a => rfl

/-- The file system stays as it is, whether or not minting succeeds. -/
theorem files_mint (w : World) (identity : Identity) : (w.mint identity).2.files = w.files := by
  unfold mint
  split
  · rfl
  · dsimp only
    split
    · rfl
    · split
      · rfl
      · rfl

theorem files_of_mint (h : w.mint identity = (.ok a, w')) : w'.files = w.files := by
  have hfiles := files_mint w identity
  rwa [h] at hfiles

/-- **What minting in a world gives**: the key is made from the next two primes, and the template
    says the next serial number and the time of the clock. -/
theorem template_of_mint (h : w.mint identity = (.ok a, w')) : ∃ pair t signed signature,
    w.serials.current < maxSerial ∧ w.primes.head? = some pair ∧
    Template.mintedAt identity (w.serials.current + 1) (Rsa.PrivateKey.ofPrimes pair).publicKey
      w.clock = .ok t ∧
    a.Minted (.ofPrimes pair) t signed signature := by
  obtain ⟨_, _, pair, _, hnext, hprimes, hmint⟩ := mint_ok h
  obtain ⟨hserial, rfl⟩ := SerialSource.next_eq_some hnext
  obtain ⟨t, signed, signature, ht, hminted⟩ := Authority.template_of_mint hmint
  exact ⟨pair, t, signed, signature, hserial, by rw [hprimes]; rfl, ht, hminted⟩

/-- The key is made from the next two primes. -/
theorem minted_of_mint (h : w.mint identity = (.ok a, w')) : ∃ pair t signed signature,
    w.primes.head? = some pair ∧ a.Minted (.ofPrimes pair) t signed signature := by
  obtain ⟨pair, t, signed, signature, -, hhead, -, hminted⟩ := template_of_mint h
  exact ⟨pair, t, signed, signature, hhead, hminted⟩

/-- **All that minting needs**: a serial number, a fresh pair of primes, a year that leaves room for
    the validity, DNS names in ASCII and texts that fit into memory. -/
structure CanMint (w : World) (identity : Identity) : Prop where
  primes : ∃ pair ∈ w.primes.head?, pair.IsFresh
  serial : w.serials.current < maxSerial
  earliest : 2 ≤ w.clock.year
  latest : w.clock.year ≤ 9998
  names : ∀ name ∈ identity.dnsNames, isAscii name = true
  /-- Half of the longest text that can be addressed: the certificate holds the names twice. -/
  size : identity.size < 2 ^ 62

/-- Neither files nor log matter for minting. -/
theorem CanMint.report (h : w.CanMint identity) (files : FileSystem) (events : List LogEvent) :
    ({ w with files := files }.report events).CanMint identity :=
  ⟨h.primes, h.serial, h.earliest, h.latest, h.names, h.size⟩

/-- **Minting succeeds** where there is all that it needs. -/
theorem mint_succeeds (h : w.CanMint identity) : ∃ a w', w.mint identity = (.ok a, w') := by
  obtain ⟨pair, hhead, hpair⟩ := h.primes
  obtain ⟨a, ha⟩ := Authority.mint_succeeds hpair h.names (Int.le_trans (by decide) h.earliest)
    h.latest h.size (SerialSource.width_succ_le h.serial)
  exact ⟨a, (w.mint identity).2, Prod.ext ((mint_result h.serial hhead).trans ha) rfl⟩

/-- A world in which nothing has happened: no files, in November 2023. -/
def untouched : World where
  files := ⟨[], []⟩
  environment := ⟨none, none⟩
  clock := ⟨1700000000, 0⟩
  serials := .ofSeed 0
  primes := [.smooth]
  log := []

theorem isFresh_untouched : ∀ pair ∈ untouched.primes.head?, pair.IsFresh := by
  rintro _ ⟨⟩
  exact Rsa.PrimePair.isFresh_smooth

theorem canMint_untouched : untouched.CanMint .default where
  primes := ⟨_, rfl, Rsa.PrimePair.isFresh_smooth⟩
  serial := by decide +kernel
  earliest := by decide +kernel
  latest := by decide +kernel
  names := by decide
  size := by decide +kernel

/-- An authority that is minted there. -/
theorem exists_minted_untouched : ∃ (a : Authority) (pair : Rsa.PrimePair) (t : Template)
    (signed signature : Octets), pair.IsFresh ∧ a.Minted (.ofPrimes pair) t signed signature := by
  obtain ⟨a, _, h⟩ := mint_succeeds canMint_untouched
  obtain ⟨pair, t, signed, signature, hhead, hminted⟩ := minted_of_mint h
  exact ⟨a, pair, t, signed, signature, isFresh_untouched pair hhead, hminted⟩

/-- **A minted authority is a working self-signed signer**, whatever the identity, the serial number
    and the clock: it is its own issuer, its signature over the signed part of the certificate holds
    under the key embedded there, and what is signed with its key, which is there to sign with,
    holds under that embedded key as well. -/
theorem mint_selfSigned (hprimes : ∀ pair ∈ w.primes.head?, pair.IsFresh)
    (h : w.mint identity = (.ok a, w')) :
    a.certificate.issuer = a.certificate.subject ∧
    SignatureScheme.verify (.rsa .sha256 2048) a.certificate.publicKey.key a.certificate.signed
      a.certificate.signature = true ∧
    a.certificate.isSelfSigned = true ∧
    ∃ signer, a.signingKey? = some signer ∧ ∀ message, ∃ signature,
      signer.sign? message = some signature ∧
      SignatureScheme.verify (.rsa .sha256 2048) a.certificate.publicKey.key message signature
        = true := by
  obtain ⟨pair, t, signed, signature, hhead, hminted⟩ := minted_of_mint h
  have hpair := hprimes pair hhead
  have hkey : a.certificate.publicKey.key = (Rsa.PrivateKey.ofPrimes pair).publicKey.encode := by
    rw [hminted.certificate, ← hminted.publicKey]
    rfl
  have hsigner : a.signingKey? = some (.ofKey (.ofPrimes pair)) := by
    rw [Authority.signingKey?, hminted.privateKey]
    exact Authority.signer_ofPrimes hpair
  refine ⟨?_, hminted.verify_signature hpair, hminted.isSelfSigned hpair, _, hsigner, ?_⟩
  · rw [hminted.certificate]
    rfl
  · intro message
    obtain ⟨signature', hsign, -⟩ := Rsa.SigningKey.sign?_isSome
      (Rsa.SigningKey.isSound_ofPrimes hpair) (Authority.room_ofPrimes hpair) message
    refine ⟨signature', hsign, ?_⟩
    rw [hkey]
    exact Authority.verify_of_signer hpair hsign

/-- The default identity, in 2023 and with the first serial number. -/
theorem mint_selfSigned_default : (∀ pair ∈ untouched.primes.head?, pair.IsFresh) ∧
    ∃ a w', untouched.mint .default = (.ok a, w') ∧ a.certificate.isSelfSigned = true := by
  obtain ⟨a, w', h⟩ := mint_succeeds canMint_untouched
  exact ⟨isFresh_untouched, a, w', h, (mint_selfSigned isFresh_untouched h).2.2.1⟩

end World

end RootAuthority
