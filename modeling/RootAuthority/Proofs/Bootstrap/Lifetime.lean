import RootAuthority.Proofs.Bootstrap.Frame
import RootAuthority.Proofs.Bootstrap.Restart
import RootAuthority.Proofs.Mint.Window

/-!
# How long a recovered authority is valid

A run is a row of calls, with restarts and other programs in between (`Bootstrapper.Run`). As long
as only calls write the files of certificates, each of these files holds what some call minted
(`Bootstrapper.Run.stamped`): loading and preparing write no file, and a call that writes has minted
before. So the certificate that comes out of a call was minted by it or by an earlier one, and is
valid from a year before to a year after that moment (`Bootstrapper.Run.certificate_window`).

The window is looked at by nobody. A certificate that was recovered is returned at every time, also
after its last day (`Bootstrapper.recovers_expired`).
-/

namespace RootAuthority

/-! ## 1. The window of a minted certificate -/

/-- **The certificate is valid from a year before to a year after an instant.** -/
structure Certificate.WindowAround (c : Certificate) (t : Instant) : Prop where
  notBefore : c.notBefore.YearsFrom t (-1)
  notAfter : c.notAfter.YearsFrom t 1
  back : t.secs - c.notBefore.instant.secs = 365 * 86400 ∨
    t.secs - c.notBefore.instant.secs = 366 * 86400
  forth : c.notAfter.instant.secs - t.secs = 365 * 86400 ∨
    c.notAfter.instant.secs - t.secs = 366 * 86400

/-- A minted certificate is valid around the moment of minting. -/
theorem Authority.windowAround_of_mint {identity : Identity} {serial : Nat} {key : Rsa.PrivateKey}
    {now : Instant} {a : Authority} (h : mint identity serial key now = .ok a) :
    a.certificate.WindowAround now := by
  obtain ⟨first, last, hfirst, hlast, hbefore, hafter⟩ := bounds_of_mint h
  obtain ⟨hback, hforth, -⟩ := Instant.secs_of_shiftYears hfirst hlast
  constructor
  · rw [hbefore]
    exact Instant.yearsFrom_of_shiftYears hfirst (.inl rfl)
  · rw [hafter]
    exact Instant.yearsFrom_of_shiftYears hlast (.inr rfl)
  · rw [hbefore]
    exact hback
  · rw [hafter]
    exact hforth

namespace Certificate.WindowAround

variable {c : Certificate} {t now : Instant}

theorem begun (h : c.WindowAround t) (hle : t ≤ now) : c.notBefore.instant < now := by
  have hsecs := Instant.secs_le_of_le hle
  have hback := h.back
  exact Instant.lt_of_secs_lt (by omega)

theorem lasts (h : c.WindowAround t) (hsoon : now.secs - t.secs < 365 * 86400) :
    now < c.notAfter.instant := by
  have hforth := h.forth
  exact Instant.lt_of_secs_lt (by omega)

theorem ended (h : c.WindowAround t) (hlate : 366 * 86400 < now.secs - t.secs) :
    c.notAfter.instant < now := by
  have hforth := h.forth
  exact Instant.lt_of_secs_lt (by omega)

end Certificate.WindowAround

/-! ## 2. What is in files -/

/-- **A key is not read as a certificate**: where the signed part belongs its container has a
    number. -/
theorem Certificate.ofDer_encodeContainer (key : Rsa.PrivateKey) (c : Certificate) :
    ofDer key.encodeContainer ≠ .ok c := by
  intro h
  obtain ⟨p, hread, -⟩ := ofDer_eq_ok_iff.mp h
  have hsequence := readTagged_sequence (length_lt_of_ofDer h) []
  rw [List.append_nil] at hsequence
  obtain ⟨tail, hnumber⟩ : ∃ tail, Der.integer 0 = 2 :: tail := ⟨_, rfl⟩
  have hother (bs : Octets) : readTagged Der.Tag.sequence (2 :: bs) = none :=
    readTagged_other (by decide) (by decide) bs
  rw [read, Rsa.PrivateKey.encodeContainer, hsequence] at hread
  simp only [Option.bind_eq_bind, Option.bind_some, withOctets, readSigned, List.flatten_cons,
    hnumber, List.cons_append, hother, Option.bind_none] at hread
  cases hread

namespace FileSystem

variable {kept : Location → Prop} {P : Octets → Prop} {fs fs' : FileSystem} {p : Path}
  {contents : Octets}

/-- Every file at one of some places has contents of a kind. -/
def OnlyHolds (kept : Location → Prop) (P : Octets → Prop) (fs : FileSystem) : Prop :=
  ∀ loc m x, kept loc → fs.find? loc = some (.file m x) → P x

/-- Directories do not matter. -/
theorem OnlyHolds.prepare (l : Locator) (h : fs.OnlyHolds kept P) :
    (l.prepare fs).OnlyHolds kept P := by
  refine Locator.prepare_induction (motive := OnlyHolds kept P) (fun q _ fs fs' hmake h => ?_) h
  obtain ⟨new, hput, rfl, -⟩ := leadsTo_of_makeDirectory hmake
  intro loc m x hloc hfile
  rw [hput.find?_put] at hfile
  split at hfile
  · cases hfile
  · exact h loc m x hloc hfile

theorem OnlyHolds.write (h : fs.OnlyHolds kept P) (hcontents : P contents)
    (hwrite : fs.writeRestricted p contents = .ok fs') : fs'.OnlyHolds kept P := by
  obtain ⟨t, ht, hw, rfl⟩ := writeRestricted_ok hwrite
  intro loc m x hloc hfile
  rw [(hw.mayPut ht artifactMode contents).find?_put] at hfile
  split at hfile
  · cases hfile
    exact hcontents
  · exact h loc m x hloc hfile

end FileSystem

namespace Bootstrapper

open FileSystem

variable {b : Bootstrapper} {w w' : World} {a : Authority} {kept : Location → Prop}
  {P : Octets → Prop}

theorem onlyHolds_load (b : Bootstrapper) (h : w.files.OnlyHolds kept P) :
    (b.load w).2.files.OnlyHolds kept P := by
  obtain ⟨⟨n, hfiles⟩, -⟩ := b.load_world w
  rw [hfiles]
  clear hfiles
  induction n with
  | zero => exact h
  | succ n ih =>
    rw [Function.iterate_succ_apply']
    exact ih.prepare b.locator

/-- **What one call leaves in files**: what was there, and what it minted. -/
theorem Ends.onlyHolds {result : Except MintFailure Authority} (h : Ends b w w' result)
    (hfiles : w.files.OnlyHolds kept P)
    (hminted : ∀ e loaded a, b.load w = (.error e, loaded) → b.Mints w a →
      P a.certificate.der ∧ P a.privateKey.container) : w'.files.OnlyHolds kept P := by
  have hloaded := b.onlyHolds_load hfiles
  cases h with
  | recovered hload =>
    rw [hload] at hloaded
    exact hloaded
  | @notMinted e failure loaded hload hmint =>
    have hsame := World.files_mint loaded b.identity
    rw [hload] at hloaded
    rw [hmint] at hsame
    rw [hsame]
    exact hloaded
  | certificateNotWritten hload hmint hcertificate hend =>
    rw [hload, ← World.files_of_mint hmint] at hloaded
    rw [hend]
    exact hloaded.prepare b.locator
  | keyNotWritten hload hmint hcertificate hkey hend =>
    obtain ⟨hder, -⟩ := hminted _ _ _ hload (mints_of_load hload hmint)
    rw [hload, ← World.files_of_mint hmint] at hloaded
    rw [hend]
    exact ((hloaded.prepare b.locator).write hder hcertificate).prepare b.locator
  | generated hload hmint hcertificate hkey =>
    obtain ⟨hder, hcontainer⟩ := hminted _ _ _ hload (mints_of_load hload hmint)
    rw [hload, ← World.files_of_mint hmint] at hloaded
    exact (((hloaded.prepare b.locator).write hder hcertificate).prepare b.locator).write
      hcontainer hkey

/-- **A certificate that was loaded** is in the file to which its path leads afterwards. -/
theorem certificate_of_load (h : b.load w = (.ok a, w')) :
    ∃ contents, w'.files.read b.certificateAt = .ok contents ∧
      Certificate.ofDer contents = .ok a.certificate := by
  obtain ⟨events, hcertificate⟩ := b.readCertificate_eq w
  rw [load, hcertificate] at h
  cases hc : (b.locator.prepare w.files).readCertificate b.certificateAt with
  | error e =>
    rw [hc] at h
    cases h
  | ok certificate =>
    obtain ⟨events', hkey⟩ := b.readKey_eq b.certificateAt certificate
      ({ w with files := b.locator.prepare w.files }.report events)
    rw [hc] at h
    obtain ⟨hresult, hworld⟩ := Prod.mk.inj (hkey.symm.trans h)
    obtain ⟨_, -, hpair⟩ := bind_eq_ok_iff.mp hresult
    obtain ⟨-, rfl⟩ := pair_eq_ok_iff.mp hpair
    obtain ⟨contents, hread, hofDer⟩ := readCertificate_eq_ok_iff.mp hc
    rw [← hworld]
    exact ⟨contents, read_prepare b.locator hread, hofDer⟩

/-- **Loading does not look at the clock.** -/
theorem load_clock (b : Bootstrapper) (w : World) (now : Instant) :
    (b.load { w with clock := now }).1 = (b.load w).1 := by
  obtain ⟨events, hcertificate⟩ := b.readCertificate_eq w
  obtain ⟨events', hcertificate'⟩ := b.readCertificate_eq { w with clock := now }
  rw [load, load, hcertificate, hcertificate']
  cases (b.locator.prepare w.files).readCertificate b.certificateAt with
  | error e => rfl
  | ok certificate =>
    obtain ⟨_, hkey⟩ := b.readKey_eq b.certificateAt certificate
      ({ w with files := b.locator.prepare w.files }.report events)
    obtain ⟨_, hkey'⟩ := b.readKey_eq b.certificateAt certificate
      ({ w with clock := now, files := b.locator.prepare w.files }.report events')
    simp only [Except.map, hkey, hkey', World.files_report]

/-- What was recovered would have been recovered at any time. -/
theorem bootstrap_clock (h : b.load w = (.ok a, w')) (now : Instant) :
    (b.bootstrap { w with clock := now }).1 = .ok a := by
  have hload := b.load_clock w now
  rw [h] at hload
  unfold bootstrap
  rcases hnow : b.load { w with clock := now } with ⟨result, _⟩
  rw [hnow] at hload
  simp only at hload
  rw [hload]

/-! ## 3. Runs -/

/-- A call: a bootstrapper and the world that it is called in. -/
structure Call where
  bootstrapper : Bootstrapper
  before : World

namespace Call

variable {c : Call}

def answer (c : Call) : Except MintFailure Authority := (c.bootstrapper.bootstrap c.before).1

def after (c : Call) : World := (c.bootstrapper.bootstrap c.before).2

/-- The call found no authority, and minted one. -/
def Mints (c : Call) (a : Authority) : Prop :=
  (∃ e loaded, c.bootstrapper.load c.before = (.error e, loaded)) ∧
    c.bootstrapper.Mints c.before a

/-- The certificate is kept at one of some places. -/
def KeepsAt (c : Call) (kept : Location → Prop) : Prop :=
  ∀ loc, c.after.files.LeadsTo c.bootstrapper.certificateAt loc → kept loc

theorem ends (c : Call) : Ends c.bootstrapper c.before c.after c.answer :=
  bootstrap_ends rfl

/-- A minted authority is read back, and its key is in a container. -/
theorem Mints.written (h : c.Mints a) :
    Certificate.ofDer a.certificate.der = .ok a.certificate ∧
      ∃ key : Rsa.PrivateKey, a.privateKey.container = key.encodeContainer := by
  obtain ⟨-, pair, -, hmint⟩ := h
  obtain ⟨_, _, _, -, hminted⟩ := Authority.template_of_mint hmint
  refine ⟨hminted.readBack, .ofPrimes pair, ?_⟩
  rw [hminted.privateKey]
  rfl

theorem Mints.windowAround (h : c.Mints a) : a.certificate.WindowAround c.before.clock := by
  obtain ⟨-, _, -, hmint⟩ := h
  exact Authority.windowAround_of_mint hmint

end Call

/-- **A run**: calls one after the other, the last one first. The files at some places are written
    by calls alone: at first there are none, and from one call to the next a file may be removed or
    get another mode, but not other contents. Each call keeps its certificate at one of these
    places. The clock is not set back. All else may change: other files, links, the bootstrapper
    with its identity, the serial source, the primes. -/
inductive Run (kept : Location → Prop) : List Call → Prop
  | first {c : Call} (hfiles : ∀ loc m x, kept loc → c.before.files.find? loc ≠ some (.file m x))
      (hkept : c.KeepsAt kept) : Run kept [c]
  | next {c c' : Call} {calls : List Call} (h : Run kept (c :: calls))
      (hclock : c.before.clock ≤ c'.before.clock)
      (hfiles : ∀ loc m x, kept loc → c'.before.files.find? loc = some (.file m x) →
        ∃ m', c.after.files.find? loc = some (.file m' x))
      (hkept : c'.KeepsAt kept) : Run kept (c' :: c :: calls)

/-- **The octets were written by one of some calls**: they are the certificate or the key of an
    authority that it minted. -/
def Stamped (calls : List Call) (x : Octets) : Prop :=
  ∃ c ∈ calls, ∃ a, c.Mints a ∧ (x = a.certificate.der ∨ x = a.privateKey.container)

theorem Stamped.later {calls : List Call} {x : Octets} (h : Stamped calls x) (c : Call) :
    Stamped (c :: calls) x := by
  obtain ⟨m, hm, hx⟩ := h
  exact ⟨m, List.mem_cons_of_mem c hm, hx⟩

/-- **One call keeps files stamped.** -/
theorem Call.stamped {c : Call} {calls : List Call}
    (h : c.before.files.OnlyHolds kept (Stamped (c :: calls))) :
    c.after.files.OnlyHolds kept (Stamped (c :: calls)) := by
  refine c.ends.onlyHolds h fun e loaded a hload hmints => ?_
  have hminted : c.Mints a := ⟨⟨e, loaded, hload⟩, hmints⟩
  exact ⟨⟨c, List.mem_cons_self, a, hminted, .inl rfl⟩,
    ⟨c, List.mem_cons_self, a, hminted, .inr rfl⟩⟩

namespace Run

variable {calls earlier : List Call} {c : Call}

/-- **After a run every file at the places that are kept was written by one of its calls.** -/
theorem stamped (h : Run kept calls) :
    ∀ c ∈ calls.head?, c.after.files.OnlyHolds kept (Stamped calls) := by
  induction h with
  | first hfiles =>
    rintro c ⟨⟩
    exact Call.stamped fun loc m x hloc hfile => (hfiles loc m x hloc hfile).elim
  | @next c c' calls _ _ hfiles _ ih =>
    rintro _ ⟨⟩
    refine Call.stamped fun loc m x hloc hfile => ?_
    obtain ⟨m', hold⟩ := hfiles loc m x hloc hfile
    exact (ih c rfl loc m' x hloc hold).later c'

theorem clock_le (h : Run kept calls) :
    ∀ c ∈ calls.head?, ∀ m ∈ calls, m.before.clock ≤ c.before.clock := by
  induction h with
  | first =>
    rintro c ⟨⟩ m hm
    rw [List.mem_singleton.mp hm]
  | @next c c' calls _ hclock _ _ ih =>
    rintro _ ⟨⟩ m hm
    rcases List.mem_cons.mp hm with rfl | hm
    · exact le_refl _
    · exact le_trans (ih c rfl m hm) hclock

theorem keepsAt (h : Run kept (c :: earlier)) : c.KeepsAt kept := by
  cases h with
  | first _ hkept => exact hkept
  | next _ _ _ hkept => exact hkept

/-- The calls up to some point are a run. -/
theorem of_append : ∀ (later : List Call), Run kept (later ++ c :: earlier) →
    Run kept (c :: earlier)
  | [], h => h
  | [_], .next h _ _ _ => h
  | _ :: m :: later, .next h _ _ _ => of_append (m :: later) h

/-- **Who minted the certificate that comes out of a call**: an earlier call or, if the authority
    was generated, this one. -/
theorem minted (h : Run kept (c :: earlier)) (hanswer : c.answer = .ok a) :
    ∃ m ∈ c :: earlier, ∃ b, m.Mints b ∧ a.certificate = b.certificate ∧
      (a.origin = .generated → m = c) := by
  have hends := c.ends
  rw [hanswer] at hends
  cases hends with
  | generated hload hmint =>
    exact ⟨c, List.mem_cons_self, a, ⟨⟨_, _, hload⟩, mints_of_load hload hmint⟩, rfl, fun _ => rfl⟩
  | recovered hload =>
    obtain ⟨-, -, -, horigin⟩ := load_ok hload
    obtain ⟨contents, hread, hofDer⟩ := certificate_of_load hload
    obtain ⟨loc, mode, hlocate⟩ := read_eq_ok_iff.mp hread
    have hloc : kept loc := h.keepsAt loc ⟨_, hlocate, rfl⟩
    obtain ⟨m, hm, b, hmints, hcontents⟩ :=
      h.stamped c rfl loc mode contents hloc (locate_entry hlocate).symm
    obtain ⟨hback, key, hkey⟩ := hmints.written
    refine ⟨m, hm, b, hmints, ?_, fun hgenerated => ?_⟩
    · rcases hcontents with rfl | rfl
      · exact Except.ok.inj (hofDer.symm.trans hback)
      · rw [hkey] at hofDer
        exact (Certificate.ofDer_encodeContainer key a.certificate hofDer).elim
    · rw [horigin] at hgenerated
      cases hgenerated

/-- **How long what comes out of a call is valid.** For every call of a run that returns an
    authority, the certificate was minted by that call or an earlier one, and is valid from a
    calendar year before to a calendar year after the clock of that moment. So its validity has
    always begun. It has not ended if the authority was generated by the call itself, nor within 365
    days of the minting; after 366 days it has. An authority that was recovered would have been
    returned at every other time as well. -/
theorem certificate_window {later : List Call} (h : Run kept (later ++ c :: earlier))
    (hanswer : c.answer = .ok a) :
    a.certificate.notBefore.instant < c.before.clock ∧
    (a.origin = .generated → c.before.clock < a.certificate.notAfter.instant) ∧
    (a.origin = .recovered → ∀ now,
      (c.bootstrapper.bootstrap { c.before with clock := now }).1 = .ok a) ∧
    ∃ m ∈ c :: earlier, (∃ b, m.Mints b ∧ a.certificate = b.certificate) ∧
      m.before.clock ≤ c.before.clock ∧
      a.certificate.notBefore.YearsFrom m.before.clock (-1) ∧
      a.certificate.notAfter.YearsFrom m.before.clock 1 ∧
      (c.before.clock.secs - m.before.clock.secs < 365 * 86400 →
        c.before.clock < a.certificate.notAfter.instant) ∧
      (366 * 86400 < c.before.clock.secs - m.before.clock.secs →
        a.certificate.notAfter.instant < c.before.clock) := by
  have hrun := of_append later h
  obtain ⟨m, hm, b, hmints, hsame, hgenerated⟩ := hrun.minted hanswer
  have hle := hrun.clock_le c rfl m hm
  have haround := hmints.windowAround
  rw [← hsame] at haround
  refine ⟨haround.begun hle, fun horigin => ?_, fun horigin now => ?_, m, hm, ⟨b, hmints, hsame⟩,
    hle, haround.notBefore, haround.notAfter, haround.lasts, haround.ended⟩
  · rw [hgenerated horigin] at haround
    exact haround.lasts (by omega)
  · have hends := c.ends
    rw [hanswer] at hends
    cases hends with
    | recovered hload => exact bootstrap_clock hload now
    | generated _ hmint =>
      obtain ⟨_, _, _, _, -, hminted⟩ := World.minted_of_mint hmint
      rw [hminted.origin] at horigin
      cases horigin

end Run

/-! ## 4. An expired authority -/

/-- The same call once more, at another time, in the world that it left behind. -/
def Call.again (c : Call) (now : Instant) : Call :=
  ⟨c.bootstrapper, { c.after with clock := now }⟩

theorem Call.files_again (c : Call) (now : Instant) :
    (c.again now).before.files = c.after.files := by
  simp only [Call.again]

theorem Call.answer_again {c : Call} (h : c.bootstrapper.bootstrap c.before = (.ok a, w))
    (now : Instant) :
    (c.again now).answer = (c.bootstrapper.bootstrap { w with clock := now }).1 := by
  simp only [Call.answer, Call.again, Call.after, h]

/-- The first call, in November 2023. -/
def firstCall : Call := ⟨inStore, World.untouched⟩

theorem run_firstCall_again {now : Instant} (h : World.untouched.clock ≤ now) :
    Run (fun _ => True) [firstCall.again now, firstCall] := by
  have hfirst : Run (fun _ => True) [firstCall] := by
    refine .first (fun loc m x _ hfile => ?_) fun _ _ => trivial
    unfold FileSystem.find? at hfile
    split at hfile
    · cases hfile
    · cases hfile
  refine .next hfirst h (fun loc m x _ hfile => ?_) fun _ _ => trivial
  rw [Call.files_again] at hfile
  exact ⟨m, hfile⟩

/-- The first call mints an authority and every later one recovers it. -/
theorem answer_firstCall_again (now : Instant) : ∃ a, firstCall.Mints a ∧
    (firstCall.again now).answer = .ok { a with origin := .recovered } := by
  obtain ⟨a, w, h, horigin⟩ := bootstrap_inStore
  obtain ⟨hs, hfound⟩ := found_of_bootstrap wellFormed_untouched World.isFresh_untouched
    places_inStore.pathsApart h (.refl inStore) fun hv => .inl hv
  obtain ⟨events, hagain⟩ := bootstrap_of_found (w := { w with clock := now }) hs hfound
  refine ⟨a, ?_, ?_⟩
  · have hends := bootstrap_ends h
    cases hends with
    | recovered hload =>
      obtain ⟨-, -, -, hrecovered⟩ := load_ok hload
      rw [hrecovered] at horigin
      cases horigin
    | generated hload hmint => exact ⟨⟨_, _, hload⟩, mints_of_load hload hmint⟩
  · rw [Call.answer_again (c := firstCall) h]
    exact congrArg Prod.fst hagain

/-- Half a year later the authority is recovered, and valid. -/
theorem Run.certificate_window_halfYear :
    Run (fun _ => True) ([] ++ firstCall.again ⟨1715000000, 0⟩ :: [firstCall]) ∧
    ∃ a, (firstCall.again ⟨1715000000, 0⟩).answer = .ok a ∧ a.origin = .recovered ∧
      a.certificate.notBefore.instant < ⟨1715000000, 0⟩ ∧
      ⟨1715000000, 0⟩ < a.certificate.notAfter.instant := by
  have hrun : Run (fun _ => True) ([] ++ firstCall.again ⟨1715000000, 0⟩ :: [firstCall]) :=
    run_firstCall_again (.inl (by decide))
  obtain ⟨a, -, hanswer⟩ := answer_firstCall_again ⟨1715000000, 0⟩
  obtain ⟨hbegun, -, -, m, hm, -, -, -, -, hlasts, -⟩ := Run.certificate_window hrun hanswer
  refine ⟨hrun, _, hanswer, rfl, hbegun, hlasts ?_⟩
  rcases List.mem_pair.mp hm with rfl | rfl
  · decide
  · decide

/-- **Three years later it is recovered all the same**, two years after its last day. -/
theorem recovers_expired :
    Run (fun _ => True) [firstCall.again ⟨1800000000, 0⟩, firstCall] ∧
    (∀ c ∈ [firstCall.again ⟨1800000000, 0⟩, firstCall], 1 ≤ c.before.clock.year ∧
      c.before.clock.year ≤ 9998) ∧
    ∃ a, (firstCall.again ⟨1800000000, 0⟩).answer = .ok a ∧
      a.certificate.notAfter.instant < (firstCall.again ⟨1800000000, 0⟩).before.clock := by
  have hrun : Run (fun _ => True) [firstCall.again ⟨1800000000, 0⟩, firstCall] :=
    run_firstCall_again (.inl (by decide))
  obtain ⟨a, hmints, hanswer⟩ := answer_firstCall_again ⟨1800000000, 0⟩
  refine ⟨hrun, ?_, _, hanswer, hmints.windowAround.ended ?_⟩
  · intro c hc
    rcases List.mem_pair.mp hc with rfl | rfl
    · exact ⟨by decide +kernel, by decide +kernel⟩
    · exact ⟨by decide +kernel, by decide +kernel⟩
  · decide

end Bootstrapper

end RootAuthority
