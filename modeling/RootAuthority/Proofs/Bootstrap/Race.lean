import RootAuthority.Proofs.Bootstrap.Step

/-!
# Who wins a race

Processes that bootstrap in the same places at the same time may all generate an authority, and each
of them writes its two files in separate steps. Every file is left as the process wrote it that
wrote it last, so certificate and key belong together exactly if one process wrote both last
(`Race.lastWriter_wins`). Otherwise a certificate is left beside the key of another authority
(`Race.certificate_beside_other_key`), and whoever does not check the binding recovers them.

* `Race.Invariant`: what every step keeps, and so every run (`Race.Invariant.run`);
* `Race.Writing`: what becomes of processes that all minted and can write, step by step.
-/

namespace RootAuthority

open FileSystem

/-! ## 1. What every step keeps -/

/-- What a process does in its step. -/
theorem Process.acts {p : Process} {files : FileSystem}
    (hready : p.bootstrapper.locator.prepare files = files ∨ p.phase = .start) :
    p.bootstrapper.Acts { p.world with files := p.bootstrapper.locator.prepare files } p.phase
      (p.step files).phase (p.step files).world :=
  Bootstrapper.act_acts (w := { p.world with files := files }) hready

namespace Race

variable {ι : Type} {b : Bootstrapper} {r : Race ι} {i j : ι}

section

variable [DecidableEq ι]

theorem files_step (r : Race ι) (i : ι) :
    (r.step i).files = ((r.process i).step r.files).world.files := rfl

/-- The other processes keep where they stand. -/
theorem process_step (r : Race ι) (i j : ι) :
    (r.step i).process j = if j = i then (r.process i).step r.files else r.process j := rfl

theorem lastWriter_step (r : Race ι) (i : ι) (x : Artifact) : (r.step i).lastWriter x
    = if (r.process i).phase.written ((r.process i).step r.files).phase = some x then some i
      else r.lastWriter x := rfl

theorem run_cons (r : Race ι) (i : ι) (schedule : List ι) :
    r.run (i :: schedule) = (r.step i).run schedule := rfl

end

/-- **What is kept in a race** of bootstrappers that look in the same places. -/
structure Invariant (b : Bootstrapper) (r : Race ι) : Prop where
  places : ∀ i, b.SamePlaces (r.process i).bootstrapper
  settled : b.locator.Settled (b.locator.prepare r.files)
  /-- The first step prepares the storage directory. -/
  ready : b.locator.prepare r.files = r.files ∨ ∀ i, (r.process i).phase = .start
  apart : (b.locator.prepare r.files).Apart b.certificateAt b.keyAt
  sound : ∀ i, (r.process i).phase.Sound (r.process i).world.primes
  /-- Each file is as its last writer wrote it. -/
  contains : ∀ x i, r.lastWriter x = some i → ∃ a, (r.process i).phase.Wrote a ∧
    (b.locator.prepare r.files).Contains (b.fileAt x) (a.content x)
  /-- No file that was written is without a last writer. -/
  noted : ∀ x i, (r.process i).phase.HasWritten x → ∃ j, r.lastWriter x = some j

/-- A file stays as it is when the other one is written. -/
theorem contains_write {fs fs' : FileSystem} (hapart : fs.Apart b.certificateAt b.keyAt)
    {x y : Artifact} {contents other : Octets} (hne : x ≠ y)
    (hwrite : fs.writeRestricted (b.fileAt x) contents = .ok fs')
    (h : fs.Contains (b.fileAt y) other) : fs'.Contains (b.fileAt y) other := by
  cases x with
  | certificate =>
    cases y with
    | certificate => exact (hne rfl).elim
    | key => exact h.write hapart hwrite
  | key =>
    cases y with
    | certificate => exact h.write hapart.symm hwrite
    | key => exact (hne rfl).elim

namespace Invariant

/-- **Before the first step.** -/
theorem start {files : FileSystem} {bootstrapper : ι → Bootstrapper} {world : ι → World}
    (hfiles : files.WellFormed) (hplaces : ∀ i, b.SamePlaces (bootstrapper i))
    (hapart : b.PathsApart (b.locator.prepare files))
    (hprimes : ∀ i, ∀ pair ∈ (world i).primes.head?, pair.IsFresh) :
    Invariant b (start files bootstrapper world) where
  places := hplaces
  settled := Locator.settled_prepare hfiles
  ready := .inr fun _ => rfl
  apart := hapart
  sound := hprimes
  contains _ _ h := nomatch h
  noted _ _ h := h.elim

/-- What is done in one step. -/
theorem acts (h : Invariant b r) (i : ι) :
    (r.process i).bootstrapper.Acts
      { (r.process i).world with files := b.locator.prepare r.files } (r.process i).phase
      ((r.process i).step r.files).phase ((r.process i).step r.files).world := by
  have hready := Or.imp_right (· i) h.ready
  rw [← (h.places i).locator] at hready ⊢
  exact Process.acts hready

/-- The storage directory was prepared by the time that a process is done. -/
theorem settled_of_done (h : Invariant b r) {a : Authority}
    (hdone : (r.process i).phase = .done (.ok a)) :
    b.locator.prepare r.files = r.files ∧ b.locator.Settled r.files := by
  have hprepare : b.locator.prepare r.files = r.files := by
    refine h.ready.resolve_right fun hstart => ?_
    have hphase := hdone.symm.trans (hstart i)
    cases hphase
  exact ⟨hprepare, hprepare ▸ h.settled⟩

/-- What was generated was minted. -/
theorem isMinted_of_done (h : Invariant b r) {a : ι → Authority}
    (hdone : ∀ i, (r.process i).phase = .done (.ok (a i)))
    (hgenerated : ∀ i, (a i).origin = .generated) (i : ι) : (a i).IsMinted := by
  have hsound := h.sound i
  rw [hdone] at hsound
  exact hsound (hgenerated i)

/-- **When all have generated an authority**, each file is that of the process that wrote it last. -/
theorem exists_lastWriter [Nonempty ι] (h : Invariant b r) {a : ι → Authority}
    (hdone : ∀ i, (r.process i).phase = .done (.ok (a i)))
    (hgenerated : ∀ i, (a i).origin = .generated) (x : Artifact) :
    ∃ i, r.lastWriter x = some i ∧ r.files.Contains (b.fileAt x) ((a i).content x) := by
  obtain ⟨i⟩ := ‹Nonempty ι›
  obtain ⟨j, hlast⟩ : ∃ j, r.lastWriter x = some j := by
    refine h.noted x i ?_
    rw [hdone]
    exact hgenerated i
  obtain ⟨hprepare, -⟩ := h.settled_of_done (hdone i)
  obtain ⟨a', hwrote, hcontains⟩ := h.contains x j hlast
  rw [hdone] at hwrote
  obtain rfl : a j = a' := hwrote
  rw [hprepare] at hcontains
  exact ⟨j, hlast, hcontains⟩

variable [DecidableEq ι]

/-- **After a step nothing is left to prepare**, and the paths are still apart. -/
theorem settled_step (h : Invariant b r) (i : ι) : b.locator.Settled (r.step i).files ∧
    (r.step i).files.Apart b.certificateAt b.keyAt := by
  rw [files_step]
  rcases (h.acts i).files with ⟨-, hfiles⟩ | ⟨x, a, -, -, hwrite⟩
  · rw [hfiles]
    exact ⟨h.settled, h.apart⟩
  · exact ⟨h.settled.write hwrite, h.apart.write hwrite⟩

/-- What a process has written is not forgotten. -/
theorem wrote_step (h : Invariant b r) {a : Authority} (hwrote : (r.process j).phase.Wrote a) :
    ((r.step i).process j).phase.Wrote a := by
  rw [process_step]
  split
  · next hji =>
    subst hji
    exact (h.acts j).wrote hwrote
  · exact hwrote

/-- **The last writer's file** is there after a step. -/
theorem contains_step (h : Invariant b r) {x : Artifact} (hlast : (r.step i).lastWriter x = some j) :
    ∃ a, ((r.step i).process j).phase.Wrote a ∧
      (r.step i).files.Contains (b.fileAt x) (a.content x) := by
  rw [lastWriter_step] at hlast
  rw [files_step]
  rcases (h.acts i).files with ⟨hnone, hfiles⟩ | ⟨y, a, hsome, hwrote, hwrite⟩
  · rw [hnone, if_neg nofun] at hlast
    obtain ⟨a, hwrote, hcontains⟩ := h.contains x j hlast
    rw [hfiles]
    exact ⟨a, h.wrote_step hwrote, hcontains⟩
  · rw [(h.places i).fileAt] at hwrite
    rw [hsome] at hlast
    split at hlast
    · next hyx =>
      obtain rfl := Option.some.inj hyx
      obtain rfl := Option.some.inj hlast
      refine ⟨a, ?_, contains_of_write hwrite⟩
      rw [process_step, if_pos rfl]
      exact hwrote
    · next hyx =>
      obtain ⟨a', hwrote', hcontains⟩ := h.contains x j hlast
      exact ⟨a', h.wrote_step hwrote',
        contains_write h.apart (fun hxy => hyx (congrArg some hxy)) hwrite hcontains⟩

/-- **One step.** -/
theorem step (h : Invariant b r) (i : ι) : Invariant b (r.step i) := by
  obtain ⟨hsettled, hapart⟩ := h.settled_step i
  have hprepare := Locator.prepare_of_settled hsettled
  refine
    { places := fun j => ?_
      settled := hprepare.symm ▸ hsettled
      ready := .inl hprepare
      apart := hprepare.symm ▸ hapart
      sound := fun j => ?_
      contains := fun x j hlast => ?_
      noted := fun x j hhas => ?_ }
  · rw [process_step]
    split
    · exact h.places i
    · exact h.places j
  · rw [process_step]
    split
    · exact (h.acts i).sound (h.sound i)
    · exact h.sound j
  · rw [hprepare]
    exact h.contains_step hlast
  · rw [process_step] at hhas
    rw [lastWriter_step]
    split
    · exact ⟨i, rfl⟩
    · next hnot =>
      -- the step wrote something else or nothing, so the file was noted before
      split at hhas
      · exact h.noted x i (((h.acts i).hasWritten hhas).resolve_right hnot)
      · exact h.noted x j hhas

/-- **A whole run.** -/
theorem run (h : Invariant b r) (schedule : List ι) : Invariant b (r.run schedule) := by
  induction schedule generalizing r with
  | nil => exact h
  | cons i schedule ih => exact ih (h.step i)

end Invariant

end Race

/-! ## 2. Processes that write -/

/-- The file that is written when so many steps were taken since an authority was minted. -/
def Artifact.writtenAfter? : (steps : Nat) → Option Artifact
  | 0 => some .certificate
  | 1 => some .key
  | _ => none

namespace Bootstrapper

/-- Where a process stands some steps after it minted an authority, if it could write. -/
def writing (b : Bootstrapper) (a : Authority) : (steps : Nat) → Phase
  | 0 => .minted a
  | 1 => .certificateWritten b.certificateAt a
  | _ => .done (.ok a)

theorem written_writing (b : Bootstrapper) (a : Authority) (steps : Nat) :
    (b.writing a steps).written (b.writing a (steps + 1)) = Artifact.writtenAfter? steps := by
  match steps with
  | 0 => rfl
  | 1 => rfl
  | steps + 2 => rfl

end Bootstrapper

/-- How many steps the processes took since they minted their authorities, and who wrote last. -/
structure Progress (ι : Type) where
  steps : ι → Nat
  lastWriter : Artifact → Option ι

/-- **What a step is** to a process that can write. -/
def Progress.step {ι : Type} [DecidableEq ι] (p : Progress ι) (i : ι) : Progress ι where
  steps j := if j = i then p.steps i + 1 else p.steps j
  lastWriter x := if Artifact.writtenAfter? (p.steps i) = some x then some i else p.lastWriter x

namespace Race

variable {ι : Type} {b : Bootstrapper} {r : Race ι} {a : ι → Authority} {p : Progress ι}

/-- **All processes minted an authority** and can write it. -/
structure Writing (b : Bootstrapper) (a : ι → Authority) (p : Progress ι) (r : Race ι) : Prop where
  bootstrapper : ∀ i, (r.process i).bootstrapper = b
  settled : b.locator.Settled r.files
  canWrite : ∀ x, r.files.CanWrite (b.fileAt x)
  phase : ∀ i, (r.process i).phase = b.writing (a i) (p.steps i)
  lastWriter : r.lastWriter = p.lastWriter

namespace Writing

/-- **All have minted** and none has written. -/
theorem start {w : ι → World} (hs : b.locator.Settled r.files)
    (hcan : ∀ x, r.files.CanWrite (b.fileAt x))
    (hprocess : ∀ i, r.process i = ⟨b, w i, .minted (a i)⟩)
    (hlast : r.lastWriter = fun _ => none) : Writing b a ⟨fun _ => 0, fun _ => none⟩ r where
  bootstrapper i := by rw [hprocess]
  settled := hs
  canWrite := hcan
  phase i := by
    rw [hprocess]
    rfl
  lastWriter := hlast

/-- The process in its step. -/
theorem process (h : Writing b a p r) (i : ι) :
    ((r.process i).step r.files).phase = b.writing (a i) (p.steps i + 1) ∧
    (((r.process i).step r.files).world.files = r.files ∨ ∃ x, r.files.writeRestricted
      (b.fileAt x) ((a i).content x) = .ok ((r.process i).step r.files).world.files) := by
  have hphase := h.phase i
  unfold Process.step
  rw [h.bootstrapper, hphase]
  match p.steps i with
  | 0 =>
    obtain ⟨w', hstep, hwrite⟩ := Bootstrapper.act_minted
      (w := { (r.process i).world with files := r.files }) h.settled (h.canWrite .certificate) (a i)
    rw [Bootstrapper.writing, hstep]
    exact ⟨rfl, .inr ⟨.certificate, hwrite⟩⟩
  | 1 =>
    obtain ⟨w', hstep, hwrite⟩ := Bootstrapper.act_certificateWritten
      (w := { (r.process i).world with files := r.files }) h.settled (h.canWrite .key)
      b.certificateAt (a i)
    rw [Bootstrapper.writing, hstep]
    exact ⟨rfl, .inr ⟨.key, hwrite⟩⟩
  | steps + 2 => exact ⟨rfl, .inl rfl⟩

variable [DecidableEq ι]

/-- **One step.** -/
theorem step (h : Writing b a p r) (i : ι) : Writing b a (p.step i) (r.step i) := by
  obtain ⟨hphase, hfiles⟩ := h.process i
  have hkept : b.locator.Settled (r.step i).files ∧
      ∀ x, (r.step i).files.CanWrite (b.fileAt x) := by
    rw [files_step]
    rcases hfiles with hfiles | ⟨x, hwrite⟩
    · rw [hfiles]
      exact ⟨h.settled, h.canWrite⟩
    · exact ⟨h.settled.write hwrite, fun y => (h.canWrite y).write hwrite⟩
  refine
    { bootstrapper := fun j => ?_
      settled := hkept.1
      canWrite := hkept.2
      phase := fun j => ?_
      lastWriter := funext fun x => ?_ }
  · rw [process_step]
    split
    · exact h.bootstrapper i
    · exact h.bootstrapper j
  · rw [process_step, Progress.step]
    dsimp only
    split
    · next hji =>
      subst hji
      exact hphase
    · exact h.phase j
  · rw [lastWriter_step, h.phase i, hphase, h.lastWriter, Bootstrapper.written_writing,
      Progress.step]

/-- **A whole run.** -/
theorem run (h : Writing b a p r) (schedule : List ι) :
    Writing b a (schedule.foldl Progress.step p) (r.run schedule) := by
  induction schedule generalizing p r with
  | nil => exact h
  | cons i schedule ih => exact ih (h.step i)

end Writing

/-! ## 3. Two processes -/

/-- A process mints in its first step if there is no certificate. -/
theorem mints {i : ι} {w : World} {e : LoadError}
    (hprocess : r.process i = ⟨b, w, .start⟩) (hmint : w.CanMint b.identity)
    (hmissing : (b.locator.prepare r.files).readCertificate b.certificateAt = .error e) :
    ∃ a w' pair t signed signature, (r.process i).step r.files = ⟨b, w', .minted a⟩ ∧
      w'.files = b.locator.prepare r.files ∧ w.primes.head? = some pair ∧
      a.Minted (.ofPrimes pair) t signed signature := by
  have hcan : World.CanMint { w with files := r.files } b.identity := { hmint with }
  obtain ⟨a, w', pair, t, signed, signature, hact, hfiles, hhead, hminted⟩ :=
    Bootstrapper.act_start hcan hmissing
  refine ⟨a, w', pair, t, signed, signature, ?_, hfiles, hhead, hminted⟩
  rw [hprocess, Process.step, hact]

/-- A world like the untouched one, with other primes to come. -/
def rival : World := { World.untouched with primes := [.smoother] }

theorem canMint_rival : rival.CanMint .default :=
  { World.canMint_untouched with primes := ⟨_, rfl, Rsa.PrimePair.isFresh_smoother⟩ }

/-- **Two processes before their first step**, with nothing on disk. -/
def rivals : Race Bool :=
  start World.untouched.files (fun _ => Bootstrapper.inStore) fun second =>
    if second then rival else World.untouched

theorem isFresh_rivals (second : Bool) :
    ∀ pair ∈ (if second then rival else World.untouched).primes.head?, pair.IsFresh := by
  cases second with
  | false => exact World.isFresh_untouched
  | true =>
    rintro _ ⟨⟩
    exact Rsa.PrimePair.isFresh_smoother

theorem invariant_rivals : Invariant Bootstrapper.inStore rivals :=
  .start Bootstrapper.wellFormed_untouched (fun _ => .refl Bootstrapper.inStore)
    Bootstrapper.places_inStore.pathsApart isFresh_rivals

theorem canWrite_inStore (x : Artifact) :
    (Bootstrapper.inStore.locator.prepare World.untouched.files).CanWrite
      (Bootstrapper.inStore.fileAt x) := by
  cases x with
  | certificate =>
    exact ⟨_, Bootstrapper.places_inStore.locateCertificate,
      Bootstrapper.places_inStore.certificateWritable⟩
  | key =>
    exact ⟨_, Bootstrapper.places_inStore.locateKey, Bootstrapper.places_inStore.keyWritable⟩

/-- The primes that each of the two mints from. -/
def rivalPrimes (second : Bool) : Rsa.PrimePair := if second then .smoother else .smooth

/-- **After its first step** each of the two has minted an authority from its own primes; only the
    storage directory was created. -/
theorem exists_minted_rivals : ∃ (a : Bool → Authority) (w : Bool → World),
    (∀ i, ((rivals.step false).step true).process i = ⟨Bootstrapper.inStore, w i, .minted (a i)⟩) ∧
    ((rivals.step false).step true).files
      = Bootstrapper.inStore.locator.prepare World.untouched.files ∧
    ((rivals.step false).step true).lastWriter = (fun _ => none) ∧
    ∀ i, ∃ t signed signature, (a i).Minted (.ofPrimes (rivalPrimes i)) t signed signature := by
  have hs := Bootstrapper.settled_inStore
  have hmissing : (Bootstrapper.inStore.locator.prepare World.untouched.files).readCertificate
      Bootstrapper.inStore.certificateAt = .error (.notFound "/store/ca.der") := rfl
  obtain ⟨a₀, w₀, _, t₀, signed₀, signature₀, hfirst, hfiles₀, hhead₀, hminted₀⟩ :=
    mints (r := rivals) (i := false) (w := World.untouched) rfl World.canMint_untouched hmissing
  -- the second process finds the storage directory as the first one prepared it
  have hprepare : Bootstrapper.inStore.locator.prepare (rivals.step false).files
      = Bootstrapper.inStore.locator.prepare World.untouched.files := by
    rw [files_step, hfirst]
    exact (congrArg _ hfiles₀).trans (Locator.prepare_of_settled hs)
  obtain ⟨a₁, w₁, _, t₁, signed₁, signature₁, hsecond, hfiles₁, hhead₁, hminted₁⟩ :=
    mints (r := rivals.step false) (i := true) (w := rival) rfl canMint_rival
      (hprepare.symm ▸ hmissing)
  obtain rfl := Option.some.inj hhead₀
  obtain rfl := Option.some.inj hhead₁
  refine ⟨fun second => if second then a₁ else a₀, fun second => if second then w₁ else w₀,
    fun i => ?_, ?_, funext fun x => ?_, fun i => ?_⟩
  · cases i with
    | false =>
      rw [process_step, if_neg nofun, process_step, if_pos rfl, hfirst]
      rfl
    | true =>
      rw [process_step, if_pos rfl, hsecond]
      rfl
  · rw [files_step, hsecond]
    exact hfiles₁.trans hprepare
  · rw [lastWriter_step, lastWriter_step, hsecond, hfirst]
    rfl
  · cases i with
    | false => exact ⟨t₀, signed₀, signature₀, hminted₀⟩
    | true => exact ⟨t₁, signed₁, signature₁, hminted₁⟩

/-- **The two have different keys**, as their primes have different products. -/
theorem publicKey_ne_rivals {a : Bool → Authority}
    (h : ∀ i, ∃ t signed signature, (a i).Minted (.ofPrimes (rivalPrimes i)) t signed signature)
    (i j : Bool) (hne : i ≠ j) :
    (a i).privateKey.key.publicKey ≠ (a j).privateKey.key.publicKey := by
  intro hkey
  obtain ⟨_, _, _, hi⟩ := h i
  obtain ⟨_, _, _, hj⟩ := h j
  have hmodulus := congrArg Rsa.PublicKey.modulus hkey
  rw [hi.modulus, hj.modulus] at hmodulus
  cases i with
  | false =>
    obtain rfl : j = true := Bool.eq_true_of_not_eq_false hne.symm
    exact Rsa.PrimePair.modulus_ne hmodulus
  | true =>
    obtain rfl : j = false := Bool.eq_false_of_not_eq_true hne.symm
    exact Rsa.PrimePair.modulus_ne hmodulus.symm

/-- **When both have taken a step** they have minted authorities with different keys, and can write
    them. -/
theorem exists_writing_rivals : ∃ a : Bool → Authority,
    (∀ schedule, Writing Bootstrapper.inStore a
      (schedule.foldl Progress.step ⟨fun _ => 0, fun _ => none⟩)
      (rivals.run (false :: true :: schedule))) ∧
    (∀ i, (a i).origin = .generated) ∧
    ∀ i j, i ≠ j → (a i).privateKey.key.publicKey ≠ (a j).privateKey.key.publicKey := by
  obtain ⟨a, w, hprocess, hfiles, hlast, hminted⟩ := exists_minted_rivals
  have hs := Bootstrapper.settled_inStore
  have hstart : Writing Bootstrapper.inStore a ⟨fun _ => 0, fun _ => none⟩
      ((rivals.step false).step true) :=
    .start (hfiles ▸ hs) (fun x => hfiles ▸ canWrite_inStore x) hprocess hlast
  refine ⟨a, fun schedule => ?_, fun i => ?_, publicKey_ne_rivals hminted⟩
  · rw [run_cons, run_cons]
    exact hstart.run schedule
  · obtain ⟨_, _, _, hi⟩ := hminted i
    exact hi.origin

end Race

/-! ## 4. Who is recovered -/

/-- **What is found** when the files hold the certificate of one minted authority and the key of
    another. -/
theorem Bootstrapper.SamePlaces.found_of_contains {b b' : Bootstrapper} {fs : FileSystem}
    {a a' : Authority} (h : b.SamePlaces b') (hc : fs.Contains b.certificateAt a.certificate.der)
    (hk : fs.Contains b.keyAt a'.privateKey.container) (ha : a.IsMinted) (ha' : a'.IsMinted) :
    b'.found fs = b'.pair b.certificateAt b.keyAt a.certificate a'.privateKey := by
  rw [← h.certificateAt] at hc ⊢
  rw [← h.keyAt] at hk ⊢
  exact Bootstrapper.found_of_contains hc hk ha.readCertificate ha'.readKey

namespace Race

variable {ι : Type} [DecidableEq ι] {b : Bootstrapper} {r : Race ι}

section

variable {a : ι → Authority}

/-- The processes are told apart by their keys. -/
theorem eq_of_publicKey (hkeys : ∀ i j, i ≠ j →
    (a i).privateKey.key.publicKey ≠ (a j).privateKey.key.publicKey) (i j : ι) :
    (a i).privateKey.key.publicKey = (a j).privateKey.key.publicKey ↔ i = j := by
  constructor
  · intro hkey
    by_contra hne
    exact hkeys i j hne hkey
  · rintro rfl
    rfl

/-- **Both files are of one process** exactly if they are of the same. -/
theorem exists_pair_iff {c k : ι} (hc : r.files.Contains b.certificateAt (a c).certificate.der)
    (hk : r.files.Contains b.keyAt (a k).privateKey.container) (hminted : ∀ i, (a i).IsMinted)
    (hkeys : ∀ i j, i ≠ j →
      (a i).privateKey.key.publicKey ≠ (a j).privateKey.key.publicKey) :
    (∃ i, r.files.read b.certificateAt = .ok (a i).certificate.der ∧
      r.files.read b.keyAt = .ok (a i).privateKey.container) ↔ c = k := by
  constructor
  · intro h
    rcases h with ⟨i, hi, hi'⟩
    have hder := Except.ok.inj (hc.read.symm.trans hi)
    have hcontainer := Except.ok.inj (hi'.symm.trans hk.read)
    have hci := (hminted c).publicKey_of_der (hminted i) hder
    have hik := (hminted i).publicKey_of_container (hminted k) hcontainer
    exact (eq_of_publicKey hkeys c k).mp (hci.trans hik)
  · rintro rfl
    exact ⟨c, hc.read, hk.read⟩

end

/-- **The last writer wins, file by file.** When processes that bootstrap in the same places have
    all generated an authority, with keys that differ, then in whatever order they took their steps
    each file is that of the process that wrote it last. Certificate and key belong together exactly
    if one process wrote both last. If not, whoever checks the binding will not load them, and
    whoever does not check it will. -/
theorem lastWriter_wins [Nonempty ι] {files : FileSystem} {bootstrapper : ι → Bootstrapper}
    {world : ι → World} {schedule : List ι} {a : ι → Authority} (hfiles : files.WellFormed)
    (hplaces : ∀ i, b.SamePlaces (bootstrapper i))
    (hapart : b.PathsApart (b.locator.prepare files))
    (hprimes : ∀ i, ∀ pair ∈ (world i).primes.head?, pair.IsFresh)
    (hrun : (start files bootstrapper world).run schedule = r)
    (hdone : ∀ i, (r.process i).phase = .done (.ok (a i)))
    (hgenerated : ∀ i, (a i).origin = .generated)
    (hkeys : ∀ i j, i ≠ j →
      (a i).privateKey.key.publicKey ≠ (a j).privateKey.key.publicKey) :
    ∃ c k, r.lastWriter .certificate = some c ∧ r.lastWriter .key = some k ∧
      r.files.read b.certificateAt = .ok (a c).certificate.der ∧
      r.files.read b.keyAt = .ok (a k).privateKey.container ∧
      ((∃ i, r.files.read b.certificateAt = .ok (a i).certificate.der ∧
        r.files.read b.keyAt = .ok (a i).privateKey.container) ↔ c = k) ∧
      ∀ (b' : Bootstrapper) (w : World), b.SamePlaces b' → w.files = r.files →
        ∃ events, b'.load w =
          (if b'.verifyKeyBinding = true ∧ c ≠ k then
            .error (.keyMismatch b.certificateAt b.keyAt)
          else .ok ⟨(a c).certificate, (a k).privateKey, .recovered⟩, w.report events) := by
  have h : Invariant b r := hrun ▸ (Invariant.start hfiles hplaces hapart hprimes).run schedule
  have hminted := h.isMinted_of_done hdone hgenerated
  obtain ⟨c, hlast, hc⟩ := h.exists_lastWriter hdone hgenerated .certificate
  obtain ⟨k, hlast', hk⟩ := h.exists_lastWriter hdone hgenerated .key
  refine ⟨c, k, hlast, hlast', hc.read, hk.read, exists_pair_iff hc hk hminted hkeys,
    fun b' w hb' hw => ?_⟩
  have hs : b'.locator.Settled w.files := by
    rw [hb'.locator, hw]
    exact (h.settled_of_done (hdone c)).2
  obtain ⟨events, hload⟩ := Bootstrapper.load_of_settled hs
  refine ⟨events, ?_⟩
  rw [hload, hw, hb'.found_of_contains hc hk (hminted c) (hminted k), Bootstrapper.pair]
  simp only [← Bool.not_eq_true, (hminted c).keyMatches_iff (hminted k),
    eq_of_publicKey hkeys c k, ne_eq]

/-- Both write one after the other, the first process first. -/
theorem lastWriter_wins_rivals : ∃ (a : Bool → Authority) (r : Race Bool),
    rivals.run [false, true, false, false, true, true] = r ∧
    (∀ i, (r.process i).phase = .done (.ok (a i))) ∧ (∀ i, (a i).origin = .generated) ∧
    (∀ i j, i ≠ j → (a i).privateKey.key.publicKey ≠ (a j).privateKey.key.publicKey) ∧
    r.files.read Bootstrapper.inStore.certificateAt = .ok (a true).certificate.der ∧
    r.files.read Bootstrapper.inStore.keyAt = .ok (a true).privateKey.container ∧
    ∀ w : World, w.files = r.files → ∃ events,
      Bootstrapper.inStore.load w = (.ok { a true with origin := .recovered }, w.report events) := by
  obtain ⟨a, hminted, hgenerated, hkeys⟩ := exists_writing_rivals
  have h := hminted [false, false, true, true]
  generalize hrun : rivals.run [false, true, false, false, true, true] = r at h
  have hdone (i : Bool) : (r.process i).phase = .done (.ok (a i)) := by
    rw [h.phase i]
    cases i with
    | false => rfl
    | true => rfl
  obtain ⟨c, k, hc, hk, hcertificate, hkey, -, hload⟩ :=
    lastWriter_wins Bootstrapper.wellFormed_untouched (fun _ => .refl Bootstrapper.inStore)
      Bootstrapper.places_inStore.pathsApart isFresh_rivals hrun hdone hgenerated hkeys
  rw [h.lastWriter] at hc hk
  obtain rfl : true = c := Option.some.inj hc
  obtain rfl : true = k := Option.some.inj hk
  refine ⟨a, r, rfl, hdone, hgenerated, hkeys, hcertificate, hkey, fun w hw => ?_⟩
  obtain ⟨events, hload⟩ := hload Bootstrapper.inStore w (.refl Bootstrapper.inStore) hw
  rw [if_neg fun hne => hne.2 rfl] at hload
  exact ⟨events, hload⟩

/-- **A certificate beside another's key**: the second process writes both its files after the
    first one wrote its certificate and before that writes its key. -/
theorem certificate_beside_other_key : ∃ (a : Bool → Authority) (r : Race Bool),
    rivals.run [false, true, false, true, true, false] = r ∧
    (∀ i, (r.process i).phase = .done (.ok (a i))) ∧ (∀ i, (a i).origin = .generated) ∧
    (∀ i j, i ≠ j → (a i).privateKey.key.publicKey ≠ (a j).privateKey.key.publicKey) ∧
    ¬∃ i, r.files.read Bootstrapper.inStore.certificateAt = .ok (a i).certificate.der ∧
      r.files.read Bootstrapper.inStore.keyAt = .ok (a i).privateKey.container := by
  obtain ⟨a, hminted, hgenerated, hkeys⟩ := exists_writing_rivals
  have h := hminted [false, true, true, false]
  have hkept := invariant_rivals.run [false, true, false, true, true, false]
  generalize rivals.run [false, true, false, true, true, false] = r at h hkept
  have hdone (i : Bool) : (r.process i).phase = .done (.ok (a i)) := by
    rw [h.phase i]
    cases i with
    | false => rfl
    | true => rfl
  obtain ⟨c, hlast, hc⟩ := hkept.exists_lastWriter hdone hgenerated .certificate
  obtain ⟨k, hlast', hk⟩ := hkept.exists_lastWriter hdone hgenerated .key
  rw [h.lastWriter] at hlast hlast'
  obtain rfl : true = c := Option.some.inj hlast
  obtain rfl : false = k := Option.some.inj hlast'
  refine ⟨a, r, rfl, hdone, hgenerated, hkeys, ?_⟩
  rw [exists_pair_iff hc hk (hkept.isMinted_of_done hdone hgenerated) hkeys]
  exact nofun

end Race

end RootAuthority
