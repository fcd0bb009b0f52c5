import RootAuthority.Proofs.Storage.Write

/-!
# What an interrupted write leaves behind

A restricted write can be cut off after any number of its steps, and its contents may come in any
number of pieces. Once the file is open, the only change so far is one file at the place to which the
path leads (`RestrictedWrite.State.Reached`): each step sets its mode or adds a piece, and so a run
adds all of them.

* `RestrictedWrite.Interrupted.read`: a write that was cut off before its last octet leaves a strict
  beginning of the contents.
* `RestrictedWrite.restricted_throughout`: at every moment of a write the contents are in no file
  that others than its owner may read, and what was there before is gone once the file is open.
-/

namespace RootAuthority.RestrictedWrite

open FileSystem

variable {p : Path} {before : FileSystem} {t : Target} {s s' : State} {a : Step}
  {steps : List Step} {contents arrived : Octets} {mode : Nat}

/-! ## 1. Steps -/

/-- The octets that a step brings to the file. -/
def Step.octets : Step → Octets
  | .append piece => piece
  | _ => []

/-- The mode of the file after a step. -/
def Step.modeAfter (old : Nat) : Step → Nat
  | .restrict => artifactMode
  | _ => old

theorem Step.modeAfter_artifactMode (a : Step) : a.modeAfter artifactMode = artifactMode := by
  cases a <;> rfl

/-- **How far a write has come**: nothing has changed but the open file, which has this mode and
    holds these octets. -/
structure State.Reached (s : State) (before : FileSystem) (t : Target) (mode : Nat)
    (arrived : Octets) : Prop where
  opened : s.opened? = some t.location
  files : s.files = before.put t.location (.file mode arrived)

/-- The path leads to the open file. -/
theorem State.Reached.locate (h : s.Reached before t mode arrived)
    (hl : before.locate true p = .ok t) (hw : t.Writable) :
    s.files.locate true p = .ok ⟨t.location, some (.file mode arrived), false⟩ := by
  have hmay := hw.mayPut hl mode arrived
  have hnew := locate_put hmay hl
  rw [hmay.find?_put, if_pos rfl, hw.1] at hnew
  rw [h.files, hnew]

/-- Every other entry is as it was. -/
theorem State.Reached.find?_ne (h : s.Reached before t mode arrived)
    (hl : before.locate true p = .ok t) (hw : t.Writable) {loc : Location}
    (hne : loc ≠ t.location) : s.files.find? loc = before.find? loc := by
  rw [h.files, (hw.mayPut hl mode arrived).find?_put, if_neg hne]

/-- **The first step opens a file that can be written**, and leaves it empty. -/
theorem reached_of_create (h : step p ⟨before, none⟩ .create = .ok s) :
    ∃ t mode, before.locate true p = .ok t ∧ t.Writable ∧ s.Reached before t mode [] := by
  cases hopen : before.openForWriting artifactMode p with
  | error e =>
    simp only [step, hopen] at h
    cases h
  | ok opened =>
    obtain ⟨loc, files⟩ := opened
    obtain ⟨t, ht, hw⟩ := writable_of_openForWriting hopen
    obtain ⟨m, hput⟩ := openForWriting_eq artifactMode ht hw
    obtain ⟨rfl, rfl⟩ := Prod.mk.inj (Except.ok.inj (hopen.symm.trans hput))
    simp only [step, hopen] at h
    obtain rfl := Except.ok.inj h
    exact ⟨t, m, ht, hw, rfl, rfl⟩

/-- **Each further step succeeds**, sets the mode and adds its octets. -/
theorem State.Reached.step (hne : t.location ≠ []) (h : s.Reached before t mode arrived)
    (ha : a ≠ .create) : ∃ s', RestrictedWrite.step p s a = .ok s' ∧
      s'.Reached before t (a.modeAfter mode) (arrived ++ a.octets) := by
  have hentry : s.files.find? t.location = some (.file mode arrived) := by
    rw [h.files, find?_put before hne, if_pos rfl]
  cases a with
  | create => exact (ha rfl).elim
  | restrict =>
    refine ⟨_, rfl, h.opened, ?_⟩
    simp only [h.opened, setMode, hentry, Step.octets, Step.modeAfter, List.append_nil]
    rw [h.files, put_put]
  | append piece =>
    refine ⟨_, rfl, h.opened, ?_⟩
    simp only [h.opened, FileSystem.append, hentry, Step.octets, Step.modeAfter]
    rw [h.files, put_put]
  | sync =>
    refine ⟨s, rfl, h.opened, ?_⟩
    show s.files = before.put t.location (.file mode (arrived ++ []))
    rw [h.files, List.append_nil]

/-- The steps after one that succeeds run in the state that it leaves. -/
theorem runSteps_cons {rest : List Step} (h : step p s a = .ok s') :
    runSteps p (a :: rest) s = runSteps p rest s' := by
  rw [runSteps, h]

/-- A step that fails ends the run, and the state is still the one before it. -/
theorem runSteps_cons_error {rest : List Step} {e : FileError} (h : step p s a = .error e) :
    runSteps p (a :: rest) s = (.error e, s) := by
  rw [runSteps, h]

/-- **A run of further steps** succeeds and adds the octets of all of them; a restricted mode stays
    restricted. -/
theorem State.Reached.runSteps (hne : t.location ≠ []) : ∀ {steps : List Step} {s : State}
    {mode : Nat} {arrived : Octets}, s.Reached before t mode arrived → Step.create ∉ steps →
    ∃ s' mode', RestrictedWrite.runSteps p steps s = (.ok (), s') ∧
      s'.Reached before t mode' (arrived ++ steps.flatMap Step.octets) ∧
      (mode = artifactMode → mode' = artifactMode)
  | [], s, mode, arrived, h, _ => by
      rw [List.flatMap_nil, List.append_nil]
      exact ⟨s, mode, rfl, h, id⟩
  | a :: steps, s, mode, arrived, h, hsteps => by
      rw [List.mem_cons, not_or] at hsteps
      obtain ⟨s₁, hstep, h₁⟩ := h.step hne (p := p) (Ne.symm hsteps.1)
      obtain ⟨s₂, mode₂, hrun, h₂, hmode⟩ := h₁.runSteps hne hsteps.2
      rw [List.flatMap_cons, ← List.append_assoc]
      refine ⟨s₂, mode₂, (runSteps_cons hstep).trans hrun, h₂, fun hrestricted => hmode ?_⟩
      · rw [hrestricted, Step.modeAfter_artifactMode]

/-! ## 2. What is read after a write was cut off -/

/-- **A write that was cut off**: the file was emptied, and of the contents a strict beginning has
    arrived, in any number of pieces. -/
def Interrupted (p : Path) (contents : Octets) (before after : FileSystem) : Prop :=
  ∃ steps s, Step.create ∉ steps ∧ runSteps p (.create :: steps) ⟨before, none⟩ = (.ok (), s) ∧
    s.files = after ∧ steps.flatMap Step.octets <+: contents ∧
    steps.flatMap Step.octets ≠ contents

/-- **What is read after a write was cut off** is a strict beginning of its contents. -/
theorem Interrupted.read {after : FileSystem} (h : Interrupted p contents before after) :
    ∃ found, after.read p = .ok found ∧ found <+: contents ∧ found ≠ contents := by
  obtain ⟨steps, s, hsteps, hrun, rfl, hprefix, hne⟩ := h
  cases hcreate : RestrictedWrite.step p ⟨before, none⟩ .create with
  | error e =>
    rw [runSteps_cons_error hcreate] at hrun
    cases hrun
  | ok s₁ =>
    rw [runSteps_cons hcreate] at hrun
    obtain ⟨t, mode, hl, hw, h₁⟩ := reached_of_create hcreate
    obtain ⟨s₂, mode₂, hrun₂, h₂, -⟩ := h₁.runSteps (hw.mayPut hl 0 []).ne_nil hsteps
    obtain rfl := (Prod.mk.inj (hrun.symm.trans hrun₂)).2
    exact ⟨_, read_eq_ok_iff.mpr ⟨_, _, h₂.locate hl hw⟩, hprefix, hne⟩

/-! ## 3. Every moment of a write -/

/-- **What a write has done to the files** when it is cut off after so many of its steps. -/
def cutOff (p : Path) (pieces : List Octets) (n : Nat) (before : FileSystem) : FileSystem :=
  (runSteps p ((stepsFor pieces).take n) ⟨before, none⟩).2.files

theorem octets_fillSteps (pieces : List Octets) :
    (fillSteps pieces).flatMap Step.octets = pieces.flatten := by
  simp [fillSteps, List.flatMap_map, Step.octets, List.flatMap_id']

theorem create_not_mem_fillSteps (pieces : List Octets) : Step.create ∉ fillSteps pieces := by
  simp [fillSteps]

/-- A write whose file cannot be opened fails. -/
theorem writeRestricted_of_create {e : FileError}
    (h : step p ⟨before, none⟩ .create = .error e) (contents : Octets) :
    before.writeRestricted p contents = .error e := by
  unfold writeRestricted stepsFor
  rw [runSteps_cons_error h]

/-- **Of all that is there only the file to which the path leads has changed**: it has this mode and
    holds these octets. -/
def OnlyChanges (before after : FileSystem) (p : Path) (mode : Nat) (held : Octets) : Prop :=
  ∃ t, before.locate true p = .ok t ∧ t.Writable ∧
    after.locate true p = .ok ⟨t.location, some (.file mode held), false⟩ ∧
    after.workingDirectory = before.workingDirectory ∧
    ∀ loc ≠ t.location, after.find? loc = before.find? loc

theorem State.Reached.onlyChanges (h : s.Reached before t mode arrived)
    (hl : before.locate true p = .ok t) (hw : t.Writable) :
    OnlyChanges before s.files p mode arrived := by
  refine ⟨t, hl, hw, h.locate hl hw, ?_, fun loc hne => h.find?_ne hl hw hne⟩
  rw [h.files]
  rfl

/-- What the pieces leave after the file was opened and restricted, wherever the write is cut
    off. -/
theorem State.Reached.fill (hne : t.location ≠ []) (h : s.Reached before t artifactMode [])
    (pieces : List Octets) (n : Nat) :
    ∃ s' arrived, RestrictedWrite.runSteps p ((fillSteps pieces).take n) s = (.ok (), s') ∧
      s'.Reached before t artifactMode arrived ∧ arrived <+: pieces.flatten ∧
      (pieces.length < n → arrived = pieces.flatten) := by
  have hnone := fun hm => create_not_mem_fillSteps pieces (List.mem_of_mem_take (i := n) hm)
  obtain ⟨s', mode', hrun, h', hmode⟩ := h.runSteps hne hnone
  obtain rfl := hmode rfl
  refine ⟨s', _, hrun, h', ?_, fun hlong => ?_⟩
  · rw [List.nil_append, ← octets_fillSteps pieces]
    exact ⟨((fillSteps pieces).drop n).flatMap Step.octets, by
      rw [← List.flatMap_append, List.take_append_drop]⟩
  · have hall : (fillSteps pieces).length ≤ n := by
      rw [fillSteps, List.length_append, List.length_map]
      exact hlong
    rw [List.nil_append, List.take_of_length_le hall, octets_fillSteps]

/-- **A write whose file was opened**, cut off after any number of further steps: the mode is
    restricted before anything arrives. -/
theorem runSteps_stepsFor (hcreate : step p ⟨before, none⟩ .create = .ok s)
    (pieces : List Octets) (n : Nat) : ∃ s' t mode arrived,
      runSteps p ((stepsFor pieces).take (n + 1)) ⟨before, none⟩ = (.ok (), s') ∧
      before.locate true p = .ok t ∧ t.Writable ∧ s'.Reached before t mode arrived ∧
      (n = 0 ∧ arrived = [] ∨ mode = artifactMode) ∧ arrived <+: pieces.flatten ∧
      (pieces.length + 1 < n → mode = artifactMode ∧ arrived = pieces.flatten) := by
  obtain ⟨t, mode, hl, hw, h₁⟩ := reached_of_create hcreate
  have hne := (hw.mayPut hl 0 []).ne_nil
  rw [stepsFor, List.take_succ_cons, runSteps_cons hcreate]
  cases n with
  | zero =>
    exact ⟨s, t, mode, [], rfl, hl, hw, h₁, .inl ⟨rfl, rfl⟩, List.nil_prefix, fun hlong =>
      absurd hlong (Nat.not_lt_zero _)⟩
  | succ n =>
    obtain ⟨s₂, hrestrict, h₂⟩ := h₁.step hne (p := p) (a := .restrict) (by decide)
    obtain ⟨s₃, arrived, hrun, h₃, hprefix, hall⟩ := h₂.fill (p := p) hne pieces n
    rw [List.take_succ_cons, runSteps_cons hrestrict]
    exact ⟨s₃, t, _, arrived, hrun, hl, hw, h₃, .inr rfl, hprefix, fun hlong =>
      ⟨rfl, hall (Nat.lt_of_succ_lt_succ hlong)⟩⟩

/-- **A write restricts its file before the first octet arrives.** Wherever it is cut off, either the
    file could not be opened and nothing has changed, or only the file to which the path leads has: it
    is still empty, or only its owner may read it, and it holds a beginning of the contents and
    nothing that was there before. A write that does not fail has gone through all of its steps and
    leaves all of the contents, in how many pieces they may have come; and it does not fail if a file
    or nothing is there. -/
theorem restricted_throughout (before : FileSystem) (p : Path) (pieces : List Octets) :
    (∀ n, cutOff p pieces n before = before ∧
        (n = 0 ∨ ∃ e, before.writeRestricted p pieces.flatten = .error e) ∨
      ∃ mode arrived, OnlyChanges before (cutOff p pieces n before) p mode arrived ∧
        (n = 1 ∧ arrived = [] ∨ mode = 0o600) ∧ arrived <+: pieces.flatten) ∧
    (∀ after, before.writeRestricted p pieces.flatten = .ok after →
      after = cutOff p pieces (stepsFor pieces).length before ∧
      OnlyChanges before after p 0o600 pieces.flatten) ∧
    ((∃ t, before.locate true p = .ok t ∧ t.Writable) →
      ∃ after, before.writeRestricted p pieces.flatten = .ok after) := by
  refine ⟨fun n => ?_, fun after h => ?_, ?_⟩
  · cases n with
    | zero => exact .inl ⟨rfl, .inl rfl⟩
    | succ n =>
      cases hcreate : step p ⟨before, none⟩ .create with
      | error e =>
        have hcut : cutOff p pieces (n + 1) before = before := by
          rw [cutOff, stepsFor, List.take_succ_cons, runSteps_cons_error hcreate]
        exact .inl ⟨hcut, .inr ⟨e, writeRestricted_of_create hcreate _⟩⟩
      | ok s₁ =>
        obtain ⟨s', t, mode, arrived, hrun, hl, hw, h', hmode, hprefix, -⟩ :=
          runSteps_stepsFor hcreate pieces n
        refine .inr ⟨mode, arrived, ?_, hmode.imp_left (And.imp_left (congrArg Nat.succ)), hprefix⟩
        rw [cutOff, hrun]
        exact h'.onlyChanges hl hw
  · cases hcreate : step p ⟨before, none⟩ .create with
    | error e =>
      rw [writeRestricted_of_create hcreate] at h
      cases h
    | ok s₁ =>
      obtain ⟨s', t, mode, arrived, hrun, hl, hw, h', -, -, hall⟩ :=
        runSteps_stepsFor hcreate pieces (pieces.length + 2)
      obtain ⟨rfl, rfl⟩ := hall (Nat.lt_succ_self _)
      obtain rfl := Except.ok.inj ((writeRestricted_eq hl hw _).symm.trans h)
      have hlength : (stepsFor pieces).length = pieces.length + 3 := by simp [stepsFor, fillSteps]
      rw [cutOff, hlength, hrun, ← h'.files]
      exact ⟨rfl, h'.onlyChanges hl hw⟩
  · intro htarget
    obtain ⟨t, hl, hw⟩ := htarget
    exact ⟨_, writeRestricted_eq hl hw _⟩

/-- A key that everyone may read, and a link that leads to it. -/
def exposedKey : FileSystem :=
  ⟨[(["caKey.der"], .file 0o644 [6, 5, 4, 3, 2, 1]), (["key"], .link "caKey.der")], []⟩

/-- A shorter key is written in two pieces along the link: first the file is empty and still open to
    everyone, and when the first piece has arrived it no longer is. -/
theorem restricted_throughout_link :
    (∃ t, exposedKey.locate true "key" = .ok t ∧ t.Writable) ∧
    (cutOff "key" [[1], [2]] 1 exposedKey).find? ["caKey.der"] = some (.file 0o644 []) ∧
    (cutOff "key" [[1], [2]] 3 exposedKey).find? ["caKey.der"] = some (.file 0o600 [1]) ∧
    ∃ after, exposedKey.writeRestricted "key" [1, 2] = .ok after ∧
      after = cutOff "key" [[1], [2]] 5 exposedKey ∧
      OnlyChanges exposedKey after "key" 0o600 [1, 2] := by
  have hl : exposedKey.locate true "key"
      = .ok ⟨["caKey.der"], some (.file 0o644 [6, 5, 4, 3, 2, 1]), false⟩ := by rfl
  have htarget : ∃ t, exposedKey.locate true "key" = .ok t ∧ t.Writable :=
    ⟨_, hl, rfl, .inr ⟨_, _, rfl⟩⟩
  obtain ⟨-, hdone, hwrites⟩ := restricted_throughout exposedKey "key" [[1], [2]]
  obtain ⟨after, hafter⟩ := hwrites htarget
  exact ⟨htarget, rfl, rfl, after, hafter, hdone after hafter⟩

end RootAuthority.RestrictedWrite
