import RootAuthority.Proofs.Bootstrap.Outcome
import RootAuthority.Proofs.Mint.SerialNumber
import RootAuthority.Session

/-!
# What a session uses up

Every step of a session either draws one serial number or leaves the serial source alone
(`Session.Step.accounts_run`), so over a whole session the serial numbers that are handed out, by
themselves or in certificates, grow strictly, whatever fails in between
(`Session.serials_accounted`).
-/

namespace RootAuthority

namespace Session

variable {w : World} {step : Step} {steps : List Step}

/-! ## 1. One step -/

namespace Step

/-- **The step needs a new certificate**: it is a run that finds nothing to recover. -/
def mints (w : World) : Step → Bool
  | bootstrap b => !(b.load w).1.isOk
  | _ => false

/-- **The step asks for a serial number**, for itself or for a certificate. -/
def draws (w : World) : Step → Bool
  | drawSerial => true
  | step => step.mints w

/-- **The serial number that a step hands out**, by itself or in the certificate that it makes, be
    it written and returned or not. -/
def handsOut? (w : World) : Step → Option Nat
  | drawSerial => w.serials.next.1
  | bootstrap b => match b.load w with
    | (.error _, loaded) => match (loaded.mint b.identity).1 with
      | .ok a => a.certificate.serialNumber?
      | .error _ => none
    | (.ok _, _) => none
  | _ => none

/-- **What a step uses up and hands out.** -/
structure Accounts (w : World) (step : Step) : Prop where
  /-- The serial source moves on by one if a number is asked for and there is one. -/
  serials : (step.run w).2.serials.current = w.serials.current
    + if step.draws w ∧ w.serials.current < maxSerial then 1 else 0
  /-- Two primes are used up if a certificate is needed and there is a number for it. -/
  primes : (step.run w).2.primes
    = w.primes.drop (if step.mints w ∧ w.serials.current < maxSerial then 1 else 0)
  /-- What is handed out is the number to which the serial source has moved on. -/
  handsOut : ∀ serial ∈ step.handsOut? w,
    serial = (step.run w).2.serials.current ∧ w.serials.current < serial ∧ serial ≤ maxSerial
  /-- A number that is drawn is handed out. -/
  drawn : ∀ serial, (step.run w).1 = .drawn (some serial) → serial ∈ step.handsOut? w
  /-- A generated authority has the number handed out. -/
  generated : ∀ a, (step.run w).1 = .bootstrapped (.ok a) → a.origin = .generated →
    ∃ serial ∈ step.handsOut? w, a.certificate.serialNumber? = some serial

/-- A step that leaves serial source and primes alone, and hands nothing out. -/
theorem accounts_of_same (hserials : (step.run w).2.serials = w.serials)
    (hprimes : (step.run w).2.primes = w.primes) (hdraws : step.draws w = false)
    (hmints : step.mints w = false) (hnone : step.handsOut? w = none)
    (hdrawn : ∀ serial, (step.run w).1 ≠ .drawn (some serial))
    (hgenerated : ∀ a, (step.run w).1 = .bootstrapped (.ok a) → a.origin ≠ .generated) :
    step.Accounts w where
  serials := by
    rw [hserials, hdraws, if_neg (fun h => nomatch h.1), Nat.add_zero]
  primes := by
    rw [hprimes, hmints, if_neg (fun h => nomatch h.1), List.drop_zero]
  handsOut serial h := by
    rw [hnone] at h
    cases h
  drawn serial h := (hdrawn serial h).elim
  generated a ha horigin := (hgenerated a ha horigin).elim

/-- A number that is drawn. -/
theorem accounts_drawSerial (w : World) : Accounts w .drawSerial := by
  have hnext : w.serials.next = if w.serials.current < maxSerial
      then (some (w.serials.current + 1), ⟨w.serials.current + 1⟩) else (none, w.serials) := rfl
  have hrun : (run w .drawSerial).2 = { w with serials := w.serials.next.2 } := rfl
  by_cases hlt : w.serials.current < maxSerial
  · rw [if_pos hlt] at hnext
    refine ⟨?_, rfl, ?_, fun _ h => Answer.drawn.inj h, fun _ => nofun⟩
    · rw [hrun, hnext, if_pos ⟨rfl, hlt⟩]
    · intro serial h
      rw [handsOut?, hnext] at h
      obtain rfl := Option.some.inj h
      rw [hrun, hnext]
      exact ⟨rfl, Nat.lt_succ_self _, hlt⟩
  · rw [if_neg hlt] at hnext
    refine ⟨?_, rfl, ?_, fun _ h => Answer.drawn.inj h, fun _ => nofun⟩
    · rw [hrun, hnext, if_neg fun h => hlt h.2]
      rfl
    · intro serial h
      rw [handsOut?, hnext] at h
      cases h

/-- What a run that finds nothing hands out: the next number, in the certificate that it mints. -/
theorem mem_handsOut?_bootstrap {b : Bootstrapper} {e : LoadError} {loaded : World}
    (hload : b.load w = (.error e, loaded)) {serial : Nat} :
    serial ∈ handsOut? w (.bootstrap b) ↔ ∃ a, (loaded.mint b.identity).1 = .ok a ∧
      a.certificate.serialNumber? = some serial ∧
      serial = w.serials.current + 1 ∧ w.serials.current < maxSerial := by
  have hsame := (b.load_world w).2
  rw [hload] at hsame
  rw [handsOut?, hload]
  dsimp only
  cases hmint : (loaded.mint b.identity).1 with
  | error failure => simp
  | ok a =>
    obtain ⟨hleft, hnumber⟩ := World.serialNumber?_of_mint (Prod.ext hmint rfl)
    rw [hsame.serials] at hleft hnumber
    simp [hnumber, hleft, eq_comm]

/-- A run that finds nothing. -/
theorem accounts_of_load {b : Bootstrapper} {e : LoadError} {loaded : World}
    (hload : b.load w = (.error e, loaded))
    (hsame : (loaded.mint b.identity).2.SameSupplies (b.bootstrap w).2)
    (hresult : ∀ a, (b.bootstrap w).1 = .ok a → (loaded.mint b.identity).1 = .ok a) :
    Accounts w (.bootstrap b) := by
  have hsupplies := (b.load_world w).2
  rw [hload] at hsupplies
  have hmissing : mints w (.bootstrap b) = true := by
    rw [mints, hload]
    rfl
  have huses := loaded.uses_mint b.identity
  rw [hsupplies.serials, hsupplies.primes, ← hsame.serials, ← hsame.primes] at huses
  have hgenerated (a : Authority) (ha : (run w (.bootstrap b)).1 = .bootstrapped (.ok a)) :
      ∃ serial ∈ handsOut? w (.bootstrap b), a.certificate.serialNumber? = some serial := by
    have hmint := hresult a (Answer.bootstrapped.inj ha)
    obtain ⟨hleft, hnumber⟩ := World.serialNumber?_of_mint (Prod.ext hmint rfl)
    rw [hsupplies.serials] at hleft hnumber
    exact ⟨_, (mem_handsOut?_bootstrap hload).mpr ⟨a, hmint, hnumber, rfl, hleft⟩, hnumber⟩
  by_cases hlt : w.serials.current < maxSerial
  · rw [if_pos hlt] at huses
    obtain ⟨hserials, hprimes⟩ := huses
    refine ⟨?_, ?_, ?_, fun _ => nofun, fun a ha _ => hgenerated a ha⟩
    · rw [if_pos ⟨hmissing, hlt⟩]
      exact congrArg SerialSource.current hserials
    · rw [if_pos ⟨hmissing, hlt⟩, List.drop_one]
      exact hprimes
    · intro serial h
      obtain ⟨-, -, -, rfl, -⟩ := (mem_handsOut?_bootstrap hload).mp h
      exact ⟨(congrArg SerialSource.current hserials).symm, Nat.lt_succ_self _, hlt⟩
  · rw [if_neg hlt] at huses
    obtain ⟨hserials, hprimes⟩ := huses
    refine ⟨?_, ?_, ?_, fun _ => nofun, fun a ha _ => hgenerated a ha⟩
    · rw [if_neg fun h => hlt h.2]
      exact congrArg SerialSource.current hserials
    · rw [if_neg fun h => hlt h.2]
      exact hprimes
    · intro serial h
      obtain ⟨-, -, -, -, hleft⟩ := (mem_handsOut?_bootstrap hload).mp h
      exact absurd hleft hlt

/-- A run, whether it recovers, generates or fails. -/
theorem accounts_bootstrap (b : Bootstrapper) (w : World) : Accounts w (.bootstrap b) := by
  have hrun : run w (.bootstrap b) = (.bootstrapped (b.bootstrap w).1, (b.bootstrap w).2) := rfl
  have hends : b.Ends w (b.bootstrap w).2 (b.bootstrap w).1 := b.bootstrap_ends rfl
  rcases hends.supplies with ⟨a, hload, hresult⟩ | ⟨e, loaded, hload, hsame, hresult⟩
  · have hsupplies := (b.load_world w).2
    rw [hload] at hsupplies
    have hfound : mints w (.bootstrap b) = false := by
      rw [mints, hload]
      rfl
    refine accounts_of_same hsupplies.serials hsupplies.primes hfound hfound ?_ (fun _ => nofun) ?_
    · rw [handsOut?, hload]
    · intro a' ha' hgenerated
      rw [hrun, hresult] at ha'
      cases ha'
      obtain ⟨-, -, -, horigin⟩ := Bootstrapper.load_ok hload
      exact nomatch horigin.symm.trans hgenerated
  · exact accounts_of_load hload hsame hresult

/-- **Only a run and a drawn number touch the supplies**, and only these answer like them. -/
theorem run_quiet (hrun : ∀ b, step ≠ .bootstrap b) (hdraw : step ≠ .drawSerial) :
    (step.run w).2.serials = w.serials ∧ (step.run w).2.primes = w.primes ∧
      (∀ drawn, (step.run w).1 ≠ .drawn drawn) ∧
      ∀ result, (step.run w).1 ≠ .bootstrapped result := by
  cases step with
  | bootstrap b => exact (hrun b rfl).elim
  | drawSerial => exact (hdraw rfl).elim
  | load b =>
    obtain ⟨-, hsame⟩ := b.load_world w
    exact ⟨hsame.serials, hsame.primes, fun _ => nofun, fun _ => nofun⟩
  | certificatePath b => exact ⟨rfl, rfl, fun _ => nofun, fun _ => nofun⟩
  | keyPath b => exact ⟨rfl, rfl, fun _ => nofun, fun _ => nofun⟩
  | readCertificate path => exact ⟨rfl, rfl, fun _ => nofun, fun _ => nofun⟩
  | readPrivateKey path => exact ⟨rfl, rfl, fun _ => nofun, fun _ => nofun⟩
  | writeRestricted path contents =>
    rw [run]
    cases w.files.writeRestricted path contents with
    | ok files => exact ⟨rfl, rfl, fun _ => nofun, fun _ => nofun⟩
    | error e => exact ⟨rfl, rfl, fun _ => nofun, fun _ => nofun⟩
  | reopen configuration =>
    rw [run]
    cases Config.load w.files configuration with
    | ok c => exact ⟨rfl, rfl, fun _ => nofun, fun _ => nofun⟩
    | error e => exact ⟨rfl, rfl, fun _ => nofun, fun _ => nofun⟩
  | setClock now => exact ⟨rfl, rfl, fun _ => nofun, fun _ => nofun⟩
  | setEnvironment environment => exact ⟨rfl, rfl, fun _ => nofun, fun _ => nofun⟩
  | setFiles files => exact ⟨rfl, rfl, fun _ => nofun, fun _ => nofun⟩

/-- Such a step uses up nothing and hands out nothing. -/
theorem accounts_of_quiet (hrun : ∀ b, step ≠ .bootstrap b) (hdraw : step ≠ .drawSerial) :
    step.Accounts w := by
  obtain ⟨hserials, hprimes, hdrawn, hanswer⟩ := run_quiet (w := w) hrun hdraw
  have hmints : step.mints w = false := by
    unfold mints
    split
    · exact (hrun _ rfl).elim
    · rfl
  have hdraws : step.draws w = false := by
    unfold draws
    split
    · exact (hdraw rfl).elim
    · exact hmints
  have hnone : step.handsOut? w = none := by
    unfold handsOut?
    split
    · exact (hdraw rfl).elim
    · exact (hrun _ rfl).elim
    · rfl
  exact accounts_of_same hserials hprimes hdraws hmints hnone (fun _ => hdrawn _) fun a ha =>
    (hanswer _ ha).elim

/-- **Every step accounts for what it uses up.** -/
theorem accounts_run (step : Step) (w : World) : step.Accounts w := by
  by_cases hrun : ∃ b, step = .bootstrap b
  · obtain ⟨b, rfl⟩ := hrun
    exact accounts_bootstrap b w
  · by_cases hdraw : step = .drawSerial
    · rw [hdraw]
      exact accounts_drawSerial w
    · exact accounts_of_quiet (fun b hb => hrun ⟨b, hb⟩) hdraw

end Step

/-! ## 2. A whole session -/

/-- **The serial numbers that a session hands out**, in order. -/
def handedOut (w : World) : List Step → List Nat
  | [] => []
  | step :: steps => (step.handsOut? w).toList ++ handedOut (step.run w).2 steps

theorem run_cons (w : World) (step : Step) (steps : List Step) :
    (run w (step :: steps)).2 = (run (step.run w).2 steps).2 := rfl

/-- **What is handed out later is larger than all before it**, and no number is too large. -/
theorem lt_of_mem_handedOut : ∀ {steps : List Step} {w : World} {serial : Nat},
    serial ∈ handedOut w steps → w.serials.current < serial ∧ serial ≤ maxSerial
  | step :: steps, w, serial, h => by
      have hstep := step.accounts_run w
      rcases List.mem_append.mp h with h | h
      · obtain ⟨-, hlt, hle⟩ := hstep.handsOut serial (Option.mem_toList.mp h)
        exact ⟨hlt, hle⟩
      · obtain ⟨hlt, hle⟩ := lt_of_mem_handedOut h
        rw [hstep.serials] at hlt
        exact ⟨Nat.lt_of_le_of_lt (Nat.le_add_right _ _) hlt, hle⟩

/-- **The numbers grow strictly.** -/
theorem pairwise_handedOut : ∀ (steps : List Step) (w : World),
    (handedOut w steps).Pairwise (· < ·)
  | [], _ => .nil
  | step :: steps, w => by
      refine List.pairwise_append.mpr ⟨?_, pairwise_handedOut steps _, ?_⟩
      · cases step.handsOut? w with
        | none => exact .nil
        | some serial => exact List.pairwise_singleton _ _
      · intro first hfirst later hlater
        obtain ⟨rfl, -, -⟩ := (step.accounts_run w).handsOut first (Option.mem_toList.mp hfirst)
        exact (lt_of_mem_handedOut hlater).1

/-- **Serial numbers and keys of a whole session are accounted for**, whatever its steps are, in
    whatever order, and whichever of them fail. The numbers handed out grow strictly from the seed
    to the largest serial number. A step moves the serial source on by one if it draws a number or
    finds no authority to recover and there is a number left, and leaves it where it is otherwise;
    in the latter of the two cases, and only then, it uses up a key. What comes later never hands
    out a number up to where the source stands, so that the number of a certificate that could not
    be made is lost. -/
theorem serials_accounted (w : World) (steps : List Step) :
    (handedOut w steps).Pairwise (· < ·) ∧ (handedOut w steps).Nodup ∧
    (∀ serial ∈ handedOut w steps, w.serials.current < serial ∧ serial ≤ maxSerial) ∧
    ∀ before step after, steps = before ++ step :: after →
      step.Accounts (run w before).2 ∧
      ∀ serial ∈ handedOut (step.run (run w before).2).2 after,
        (step.run (run w before).2).2.serials.current < serial := by
  have hgrow := pairwise_handedOut steps w
  refine ⟨hgrow, hgrow.imp Nat.ne_of_lt, fun _ => lt_of_mem_handedOut, ?_⟩
  intro before step after _
  exact ⟨step.accounts_run _, fun serial h => (lt_of_mem_handedOut h).1⟩

/-- A run for which there are no primes between two numbers that are drawn. -/
def withoutPrimes : List Step := [.drawSerial, .bootstrap .inStore, .drawSerial]

/-- The number that the run drew is lost. -/
theorem serials_accounted_withoutPrimes :
    let w : World := { World.untouched with primes := [] }
    handedOut w withoutPrimes = [1, 3] ∧
    Step.Accounts (run w [.drawSerial]).2 (.bootstrap .inStore) ∧
    (Step.run (run w [.drawSerial]).2 (.bootstrap .inStore)).2.serials.current = 2 ∧
    ∀ serial ∈ handedOut (Step.run (run w [.drawSerial]).2 (.bootstrap .inStore)).2 [.drawSerial],
      (Step.run (run w [.drawSerial]).2 (.bootstrap .inStore)).2.serials.current < serial := by
  intro w
  obtain ⟨-, -, -, hsteps⟩ := serials_accounted w withoutPrimes
  obtain ⟨haccounts, hlater⟩ := hsteps [.drawSerial] (.bootstrap .inStore) [.drawSerial] rfl
  exact ⟨by decide +kernel, haccounts, by decide +kernel, hlater⟩

end Session

end RootAuthority
