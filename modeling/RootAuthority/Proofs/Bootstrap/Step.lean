import RootAuthority.Bootstrap.Race
import RootAuthority.Proofs.Bootstrap.Binding

/-!
# A run in single steps

A bootstrapper that is alone does in four steps what a run does (`Bootstrapper.acts_bootstrap`).
Among others it matters what a single step can do, wherever the files come from: it writes one file
or none, and it writes what it minted (`Bootstrapper.Acts`).

* `Bootstrapper.act_acts`: every step is one of these;
* `Bootstrapper.Acts.files`, `Bootstrapper.Acts.wrote`, `Bootstrapper.Acts.hasWritten`,
  `Bootstrapper.Acts.sound`: what they do to the files, and what is known from the phase alone;
* `Bootstrapper.act_start`, `Bootstrapper.act_minted`, `Bootstrapper.act_certificateWritten`: steps
  that succeed.
-/

namespace RootAuthority

/-! ## 1. Alone -/

namespace Bootstrapper

variable {b b' : Bootstrapper} {w w' : World} {phase phase' : Phase}

theorem acts_succ (b : Bootstrapper) (steps : Nat) (phase : Phase) (w : World) :
    b.acts (steps + 1) phase w = b.acts steps (b.act phase w).1 (b.act phase w).2 := rfl

/-- When a run is over, nothing happens any more. -/
theorem acts_done (b : Bootstrapper) (steps : Nat) (result : Except MintFailure Authority)
    (w : World) : b.acts steps (.done result) w = (.done result, w) := by
  induction steps with
  | zero => rfl
  | succ steps ih => exact ih

/-- What was minted in one step is stored in the next two. -/
theorem acts_startOver (b : Bootstrapper) (steps : Nat) (w : World) :
    b.acts (steps + 2) (b.startOver w).1 (b.startOver w).2
      = (.done (b.mintAndStore w).1, (b.mintAndStore w).2) := by
  unfold startOver mintAndStore
  rcases w.mint b.identity with ⟨failure | authority, w₁⟩
  · exact b.acts_done _ _ _
  · rw [acts_succ, act]
    dsimp only
    rcases b.writeCertificate authority w₁ with ⟨failure | path, w₂⟩
    · exact b.acts_done _ _ _
    · exact b.acts_done _ _ _

/-- **Alone, four steps are a run**: nothing else happens between them. -/
theorem acts_bootstrap (b : Bootstrapper) (w : World) :
    b.acts 4 .start w = (.done (b.bootstrap w).1, (b.bootstrap w).2) := by
  unfold bootstrap load
  rw [acts_succ, act]
  rcases b.readCertificate w with ⟨e | ⟨path, certificate⟩, w₁⟩
  · exact b.acts_startOver 1 w₁
  · dsimp only
    rw [acts_succ, act]
    rcases b.readKey path certificate w₁ with ⟨e | authority, w₂⟩
    · exact b.acts_startOver 0 w₂
    · rfl

/-- The path of one of the two files. -/
def fileAt (b : Bootstrapper) : Artifact → Path
  | .certificate => b.certificateAt
  | .key => b.keyAt

theorem SamePlaces.fileAt (h : b.SamePlaces b') (x : Artifact) : b'.fileAt x = b.fileAt x := by
  cases x with
  | certificate => exact h.certificateAt
  | key => exact h.keyAt

end Bootstrapper

/-! ## 2. Minted authorities -/

namespace Authority

variable {a a' : Authority}

/-- What one of the two files holds. -/
def content (a : Authority) : Artifact → Octets
  | .certificate => a.certificate.der
  | .key => a.privateKey.container

/-- The public key of a minted authority is that of the key it was minted with. -/
theorem Minted.modulus {key : Rsa.PrivateKey} {t : Template} {signed signature : Octets}
    (h : a.Minted key t signed signature) :
    a.privateKey.key.publicKey.modulus = key.modulus := by
  rw [h.privateKey]
  rfl

/-- **The authority was minted** with fresh primes. -/
def IsMinted (a : Authority) : Prop := ∃ pair t signed signature, pair.IsFresh ∧
  a.Minted (.ofPrimes pair) t signed signature

theorem IsMinted.readCertificate (h : a.IsMinted) :
    Certificate.ofDer a.certificate.der = .ok a.certificate := by
  obtain ⟨_, _, _, _, _, hminted⟩ := h
  exact hminted.readBack

theorem IsMinted.readKey (h : a.IsMinted) :
    StoredKey.ofContainer a.privateKey.container = .ok a.privateKey := by
  obtain ⟨_, _, _, _, hpair, hminted⟩ := h
  exact hminted.ofContainer_container hpair

/-- **A certificate belongs to the key of another authority** only if they have the same key. -/
theorem IsMinted.keyMatches_iff (h : a.IsMinted) (h' : a'.IsMinted) (o : Origin) :
    keyMatches ⟨a.certificate, a'.privateKey, o⟩ = true
      ↔ a.privateKey.key.publicKey = a'.privateKey.key.publicKey := by
  have hmatches : a.keyMatches = true := by
    obtain ⟨_, _, _, _, _, hminted⟩ := h
    exact hminted.keyMatches
  constructor
  · intro hboth
    exact StoredKey.eq_of_keyMatches h.readKey h'.readKey hmatches hboth
  · intro hkey
    rw [keyMatches, decide_eq_true_eq] at hmatches ⊢
    rw [← hkey, hmatches]

/-- Authorities with the same certificate have the same key. -/
theorem IsMinted.publicKey_of_der (h : a.IsMinted) (h' : a'.IsMinted)
    (heq : a.certificate.der = a'.certificate.der) :
    a.privateKey.key.publicKey = a'.privateKey.key.publicKey := by
  have hread := h.readCertificate
  rw [heq, h'.readCertificate] at hread
  have hcertificate := Except.ok.inj hread
  rw [← h.keyMatches_iff h' .recovered, ← hcertificate, h'.keyMatches_iff h']

/-- And so have those with the same container. -/
theorem IsMinted.publicKey_of_container (h : a.IsMinted) (h' : a'.IsMinted)
    (heq : a.privateKey.container = a'.privateKey.container) :
    a.privateKey.key.publicKey = a'.privateKey.key.publicKey := by
  have hread := h.readKey
  rw [heq, h'.readKey] at hread
  rw [Except.ok.inj hread]

end Authority

/-! ## 3. Phases -/

namespace Phase

/-- The process has still something to read. -/
def Reads (phase : Phase) : Prop := phase = .start ∨ ∃ path c, phase = .certificateRead path c

/-- The run is over. -/
def IsOver : Phase → Prop
  | .done _ => True
  | _ => False

/-- The process can have written files of this authority only. If it failed, nothing tells any more
    which authority that was. -/
def Wrote (a : Authority) : Phase → Prop
  | .certificateWritten _ a' => a' = a
  | .done (.ok a') => a' = a
  | .done (.error _) => True
  | _ => False

/-- The process has certainly written the file, for it goes on or has generated an authority. -/
def HasWritten (x : Artifact) : Phase → Prop
  | .certificateWritten _ _ => x = .certificate
  | .done (.ok a) => a.origin = .generated
  | _ => False

/-- **The authority of a process**, if it generated one, was minted; before that, the primes that
    come next are fresh. -/
def Sound (primes : List Rsa.PrimePair) : Phase → Prop
  | .start | .certificateRead _ _ => ∀ pair ∈ primes.head?, pair.IsFresh
  | .minted a | .certificateWritten _ a => a.IsMinted
  | .done (.ok a) => a.origin = .generated → a.IsMinted
  | .done (.error _) => True

theorem written_failed (phase : Phase) (failure : MintFailure) :
    phase.written (.done (.error failure)) = none := by
  cases phase with
  | _ => rfl

end Phase

/-! ## 4. What one step can do -/

namespace Bootstrapper

variable {b : Bootstrapper} {w w' : World} {phase phase' : Phase}

/-- **What one step can do** where nothing is left to prepare. -/
inductive Acts (b : Bootstrapper) (w : World) : Phase → Phase → World → Prop
  | certificateFound (c : Certificate) {w' : World} (hfiles : w'.files = w.files)
      (hprimes : w'.primes = w.primes) : Acts b w .start (.certificateRead b.certificateAt c) w'
  | keyFound (path : Path) (c : Certificate) (a : Authority) {w' : World}
      (hfiles : w'.files = w.files) (horigin : a.origin = .recovered) :
      Acts b w (.certificateRead path c) (.done (.ok a)) w'
  | minted {phase : Phase} (a : Authority) {w' : World} (hphase : phase.Reads)
      (hfiles : w'.files = w.files)
      (hminted : (∀ pair ∈ w.primes.head?, pair.IsFresh) → a.IsMinted) :
      Acts b w phase (.minted a) w'
  | failed {phase : Phase} (failure : MintFailure) {w' : World} (hphase : ¬phase.IsOver)
      (hfiles : w'.files = w.files) : Acts b w phase (.done (.error failure)) w'
  | certificateWritten (a : Authority) {w' : World}
      (hwrite : w.files.writeRestricted b.certificateAt a.certificate.der = .ok w'.files) :
      Acts b w (.minted a) (.certificateWritten b.certificateAt a) w'
  | keyWritten (path : Path) (a : Authority) {w' : World}
      (hwrite : w.files.writeRestricted b.keyAt a.privateKey.container = .ok w'.files) :
      Acts b w (.certificateWritten path a) (.done (.ok a)) w'
  | finished (result : Except MintFailure Authority) : Acts b w (.done result) (.done result) w

/-- Minting is a step like that. -/
theorem startOver_acts (b : Bootstrapper) (w : World) (events : List LogEvent)
    (hphase : phase.Reads) :
    Acts b w phase (b.startOver (w.report events)).1 (b.startOver (w.report events)).2 := by
  have hfiles := World.files_mint (w.report events) b.identity
  unfold startOver
  rcases hmint : (w.report events).mint b.identity with ⟨failure | a, w₁⟩
  · rw [hmint] at hfiles
    obtain rfl | ⟨path, c, rfl⟩ := hphase
    · exact .failed failure id hfiles
    · exact .failed failure id hfiles
  · rw [hmint] at hfiles
    refine .minted a hphase hfiles fun hfresh => ?_
    obtain ⟨pair, t, signed, signature, hhead, hminted⟩ := World.minted_of_mint hmint
    exact ⟨pair, t, signed, signature, hfresh pair hhead, hminted⟩

/-- **Every step is one of these**, but for what the first one prepares. -/
theorem act_acts (hready : b.locator.prepare w.files = w.files ∨ phase = .start) :
    Acts b { w with files := b.locator.prepare w.files } phase (b.act phase w).1
      (b.act phase w).2 := by
  cases phase with
  | start =>
    obtain ⟨events, hread⟩ := b.readCertificate_eq w
    rw [act, hread]
    cases (b.locator.prepare w.files).readCertificate b.certificateAt with
    | ok c => exact .certificateFound c rfl rfl
    | error e => exact b.startOver_acts _ events (.inl rfl)
  | certificateRead path c =>
    obtain ⟨events, hread⟩ := b.readKey_eq path c w
    rw [act, hread]
    cases hpair : (b.locator.prepare w.files).readPrivateKey b.keyAt
        >>= b.pair path b.keyAt c with
    | ok a =>
      obtain ⟨k, -, hpair⟩ := bind_eq_ok_iff.mp hpair
      obtain ⟨-, rfl⟩ := pair_eq_ok_iff.mp hpair
      exact .keyFound path c _ rfl rfl
    | error e => exact b.startOver_acts _ events (.inr ⟨path, c, rfl⟩)
  | minted a =>
    obtain ⟨events, hwrite⟩ := b.writeCertificate_prepared a w
    rw [act, hwrite]
    cases hfiles : (b.locator.prepare w.files).writeRestricted b.certificateAt
        a.certificate.der with
    | ok files => exact .certificateWritten a hfiles
    | error e => exact .failed _ id rfl
  | certificateWritten path a =>
    obtain ⟨events, hwrite⟩ := b.writeKey_prepared path a w
    rw [act, hwrite]
    cases hfiles : (b.locator.prepare w.files).writeRestricted b.keyAt
        a.privateKey.container with
    | ok files => exact .keyWritten path a hfiles
    | error e => exact .failed _ id rfl
  | done result =>
    have hprepare := hready.resolve_right nofun
    rw [hprepare]
    exact .finished result

namespace Acts

variable {a : Authority} {x : Artifact}

/-- **One file is written, or none**, and a file that is written is the authority's that the process
    goes on with. -/
theorem files (h : Acts b w phase phase' w') :
    phase.written phase' = none ∧ w'.files = w.files ∨
    ∃ x a, phase.written phase' = some x ∧ phase'.Wrote a ∧
      w.files.writeRestricted (b.fileAt x) (a.content x) = .ok w'.files := by
  cases h with
  | certificateFound c hfiles hprimes => exact .inl ⟨rfl, hfiles⟩
  | keyFound path c a hfiles horigin => exact .inl ⟨rfl, hfiles⟩
  | minted a hphase hfiles hminted =>
    obtain rfl | ⟨path, c, rfl⟩ := hphase
    · exact .inl ⟨rfl, hfiles⟩
    · exact .inl ⟨rfl, hfiles⟩
  | failed failure hphase hfiles => exact .inl ⟨Phase.written_failed phase failure, hfiles⟩
  | certificateWritten a hwrite => exact .inr ⟨.certificate, a, rfl, rfl, hwrite⟩
  | keyWritten path a hwrite => exact .inr ⟨.key, a, rfl, rfl, hwrite⟩
  | finished result => exact .inl ⟨rfl, rfl⟩

/-- A process that wrote files of one authority writes no others. -/
theorem wrote (h : Acts b w phase phase' w') (hwrote : phase.Wrote a) : phase'.Wrote a := by
  cases h with
  | certificateFound c hfiles hprimes => exact hwrote.elim
  | keyFound path c a' hfiles horigin => exact hwrote.elim
  | minted a' hphase hfiles hminted =>
    obtain rfl | ⟨path, c, rfl⟩ := hphase
    · exact hwrote.elim
    · exact hwrote.elim
  | failed failure hphase hfiles => trivial
  | certificateWritten a' hwrite => exact hwrote.elim
  | keyWritten path a' hwrite => exact hwrote
  | finished result => exact hwrote

/-- A process is in a phase in which it has written a file only if it writes it, or had. -/
theorem hasWritten (h : Acts b w phase phase' w') (hhas : phase'.HasWritten x) :
    phase.HasWritten x ∨ phase.written phase' = some x := by
  cases h with
  | certificateFound c hfiles hprimes => exact hhas.elim
  | keyFound path c a hfiles horigin => exact nomatch horigin.symm.trans hhas
  | minted a hphase hfiles hminted => exact hhas.elim
  | failed failure hphase hfiles => exact hhas.elim
  | certificateWritten a hwrite => exact .inr (congrArg some (Eq.symm hhas))
  | keyWritten path a hwrite =>
    cases x with
    | certificate => exact .inl rfl
    | key => exact .inr rfl
  | finished result => exact .inl hhas

/-- Authorities are minted with fresh primes. -/
theorem sound (h : Acts b w phase phase' w') (hsound : phase.Sound w.primes) :
    phase'.Sound w'.primes := by
  cases h with
  | certificateFound c hfiles hprimes =>
    rw [← hprimes] at hsound
    exact hsound
  | keyFound path c a hfiles horigin => exact fun hgenerated => nomatch horigin.symm.trans hgenerated
  | minted a hphase hfiles hminted =>
    obtain rfl | ⟨path, c, rfl⟩ := hphase
    · exact hminted hsound
    · exact hminted hsound
  | failed failure hphase hfiles => trivial
  | certificateWritten a hwrite => exact hsound
  | keyWritten path a hwrite => exact fun _ => hsound
  | finished result => exact hsound

end Acts

/-! ## 5. Steps that succeed -/

/-- **The first step mints** where there is no certificate and all that minting needs. -/
theorem act_start {e : LoadError} (hmint : w.CanMint b.identity)
    (hmissing : (b.locator.prepare w.files).readCertificate b.certificateAt = .error e) :
    ∃ a w' pair t signed signature, b.act .start w = (.minted a, w') ∧
      w'.files = b.locator.prepare w.files ∧ w.primes.head? = some pair ∧
      a.Minted (.ofPrimes pair) t signed signature := by
  obtain ⟨events, hread⟩ := b.readCertificate_eq w
  rw [hmissing] at hread
  obtain ⟨a, w', ha⟩ := World.mint_succeeds (hmint.report (b.locator.prepare w.files) events)
  obtain ⟨pair, t, signed, signature, hhead, hminted⟩ := World.minted_of_mint ha
  refine ⟨a, w', pair, t, signed, signature, ?_, World.files_of_mint ha, hhead, hminted⟩
  rw [act, hread]
  show b.startOver _ = _
  rw [startOver, ha]

/-- The certificate is written where it can be. -/
theorem act_minted (hs : b.locator.Settled w.files) (hcan : w.files.CanWrite b.certificateAt)
    (a : Authority) : ∃ w', b.act (.minted a) w = (.certificateWritten b.certificateAt a, w') ∧
      w.files.writeRestricted b.certificateAt a.certificate.der = .ok w'.files := by
  obtain ⟨files, hwrite⟩ := hcan.write_ok a.certificate.der
  obtain ⟨events, hstep⟩ := writeCertificate_eq hs a
  rw [hwrite] at hstep
  refine ⟨{ w with files := files }.report events, ?_, hwrite⟩
  rw [act, hstep]

/-- And so is the key. -/
theorem act_certificateWritten (hs : b.locator.Settled w.files) (hcan : w.files.CanWrite b.keyAt)
    (path : Path) (a : Authority) : ∃ w', b.act (.certificateWritten path a) w
      = (.done (.ok a), w') ∧
      w.files.writeRestricted b.keyAt a.privateKey.container = .ok w'.files := by
  obtain ⟨files, hwrite⟩ := hcan.write_ok a.privateKey.container
  obtain ⟨events, hstep⟩ := writeKey_eq hs path a
  rw [hwrite] at hstep
  refine ⟨{ w with files := files }.report events, ?_, hwrite⟩
  rw [act, hstep]

end Bootstrapper

end RootAuthority
