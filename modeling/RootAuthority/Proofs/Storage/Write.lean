import RootAuthority.Proofs.Storage.Walk
import RootAuthority.Storage.RestrictedWrite

/-!
# What a restricted write leaves behind

A write goes where its path leads, if nothing or a file is there (`Target.Writable`), and all its
steps together put one file at that place, with the contents written and the restricted mode:

* `FileSystem.writeRestricted_eq`, and `FileSystem.writeRestricted_ok` for the way back;
* `FileSystem.read_put`: the contents are read again under the same path, and
* `FileSystem.read_put_ne`: under a path that leads elsewhere nothing has changed.
-/

namespace RootAuthority.FileSystem

/-- Nothing or a file is there, and the path does not insist on a directory. -/
def Target.Writable (t : Target) : Prop :=
  t.slash = false ∧ (t.entry? = none ∨ ∃ m c, t.entry? = some (.file m c))

variable {fs : FileSystem} {follow : Bool} {p : Path}

/-! ## 1. Puts -/

theorem putEntry_putEntry (loc : Location) (e e' : Entry) (es : List (Location × Entry)) :
    putEntry loc e' (putEntry loc e es) = putEntry loc e' es := by
  induction es with
  | nil => simp [putEntry]
  | cons entry rest ih =>
    obtain ⟨l, old⟩ := entry
    by_cases hl : l = loc
    · simp [putEntry, hl]
    · simp [putEntry, hl, ih]

/-- **The later of two puts at one place counts.** -/
theorem put_put (fs : FileSystem) (loc : Location) (e e' : Entry) :
    (fs.put loc e).put loc e' = fs.put loc e' := by
  simp [put, putEntry_putEntry]

/-- The entry that a path leads to is the one at its place. -/
theorem locate_entry {t : Target} (h : fs.locate follow p = .ok t) :
    t.entry? = fs.find? t.location := by
  unfold locate at h
  split at h
  · cases h
  · exact (arrives_iff.mpr h).entry

/-- A path leads to the same place after a file was put where nothing or a file was. -/
theorem locate_put {loc : Location} {m : Nat} {c : Octets} (hput : fs.MayPut loc (.file m c))
    {t : Target} (h : fs.locate follow p = .ok t) :
    (fs.put loc (.file m c)).locate follow p
      = .ok ⟨t.location, (fs.put loc (.file m c)).find? t.location, t.slash⟩ := by
  unfold locate at h ⊢
  split at h
  · cases h
  · next hp =>
    exact ((arrives_iff.mpr h).put_file hput).walk

/-- A path that leads nowhere leads nowhere after a file was put, either. -/
theorem locate_put_error {loc : Location} {m : Nat} {c : Octets}
    (hput : fs.MayPut loc (.file m c)) {e : FileError} (h : fs.locate follow p = .error e) :
    ∃ e', (fs.put loc (.file m c)).locate follow p = .error e' := by
  unfold locate at h ⊢
  split
  · exact ⟨_, rfl⟩
  · next hp =>
    rw [hp] at h
    obtain ⟨e', he', -⟩ := walk_put_error hput linkLimit _ _ h
    exact ⟨e', he'⟩

/-- A path that leads somewhere after a file was put led there before. -/
theorem locate_of_put {loc : Location} {m : Nat} {c : Octets} (hput : fs.MayPut loc (.file m c))
    {t : Target} (h : (fs.put loc (.file m c)).locate follow p = .ok t) :
    ∃ t', fs.locate follow p = .ok t' ∧
      t = ⟨t'.location, (fs.put loc (.file m c)).find? t'.location, t'.slash⟩ := by
  cases hl : fs.locate follow p with
  | error e =>
    obtain ⟨e', he'⟩ := locate_put_error hput hl
    rw [he'] at h
    cases h
  | ok t' =>
    rw [locate_put hput hl] at h
    exact ⟨t', rfl, (Except.ok.inj h).symm⟩

theorem Target.Writable.mayPut {t : Target} (h : t.Writable) (hl : fs.locate follow p = .ok t)
    (m : Nat) (c : Octets) : fs.MayPut t.location (.file m c) := by
  have he := locate_entry hl
  obtain ⟨-, hn | ⟨m', c', hf⟩⟩ := h
  · exact .inl (he ▸ hn)
  · exact .inr ⟨m', c', he ▸ hf⟩

/-! ## 2. Writing -/

/-- Opening puts an empty file at the place that the path leads to. -/
theorem openForWriting_eq (mode : Nat) {t : Target} (hl : fs.locate true p = .ok t)
    (hw : t.Writable) :
    ∃ m, fs.openForWriting mode p = .ok (t.location, fs.put t.location (.file m [])) := by
  obtain ⟨loc, entry, slash⟩ := t
  obtain ⟨hs, he⟩ := hw
  simp only at hs he
  subst hs
  unfold openForWriting
  rw [hl]
  rcases he with rfl | ⟨m, c, rfl⟩
  · exact ⟨grantedMode mode, by simp⟩
  · exact ⟨m, by simp⟩

theorem writable_of_openForWriting {mode : Nat} {loc : Location} {fs' : FileSystem}
    (h : fs.openForWriting mode p = .ok (loc, fs')) :
    ∃ t, fs.locate true p = .ok t ∧ t.Writable := by
  unfold openForWriting at h
  split at h
  · cases h
  · cases h
  · cases h
  · next _ m c slash hl =>
    split at h
    · cases h
    · next hs => exact ⟨_, hl, by simpa using hs, .inr ⟨m, c, rfl⟩⟩
  · next _ slash hl =>
    split at h
    · cases h
    · next hs => exact ⟨_, hl, by simpa using hs, .inl rfl⟩

/-- **A restricted write puts one file with the contents and the restricted mode.** -/
theorem writeRestricted_eq {t : Target} (hl : fs.locate true p = .ok t) (hw : t.Writable)
    (contents : Octets) :
    fs.writeRestricted p contents = .ok (fs.put t.location (.file artifactMode contents)) := by
  obtain ⟨m, hopen⟩ := openForWriting_eq artifactMode hl hw
  have hne := (hw.mayPut hl 0 []).ne_nil
  have hfind (mode : Nat) (c : Octets) :
      (fs.put t.location (.file mode c)).find? t.location = some (.file mode c) := by
    rw [find?_put fs hne, if_pos rfl]
  unfold writeRestricted
  simp only [RestrictedWrite.stepsFor, RestrictedWrite.fillSteps, List.map_cons, List.map_nil,
    List.cons_append, List.nil_append, RestrictedWrite.runSteps, RestrictedWrite.step, hopen,
    Except.map, setMode, append, hfind, put_put]

/-- **A restricted write that does not fail** found its place, and did just that. -/
theorem writeRestricted_ok {contents : Octets} {fs' : FileSystem}
    (h : fs.writeRestricted p contents = .ok fs') :
    ∃ t, fs.locate true p = .ok t ∧ t.Writable ∧
      fs' = fs.put t.location (.file artifactMode contents) := by
  have hopen : ∃ loc fs₁, fs.openForWriting artifactMode p = .ok (loc, fs₁) := by
    unfold writeRestricted at h
    simp only [RestrictedWrite.stepsFor, RestrictedWrite.runSteps, RestrictedWrite.step] at h
    cases ho : fs.openForWriting artifactMode p with
    | error e =>
      rw [ho] at h
      cases h
    | ok opened => exact ⟨opened.1, opened.2, rfl⟩
  obtain ⟨loc, fs₁, ho⟩ := hopen
  obtain ⟨t, hl, hw⟩ := writable_of_openForWriting ho
  rw [writeRestricted_eq hl hw] at h
  exact ⟨t, hl, hw, (Except.ok.inj h).symm⟩

/-! ## 3. Reading -/

/-- **What is read** is in the file that the path leads to. -/
theorem read_eq_ok_iff {c : Octets} : fs.read p = .ok c ↔
    ∃ loc m, fs.locate true p = .ok ⟨loc, some (.file m c), false⟩ := by
  constructor
  · intro h
    unfold read at h
    split at h
    · cases h
    · next loc m contents slash hl =>
      split at h
      · cases h
      · next hs =>
        cases h
        rw [Bool.not_eq_true] at hs
        exact ⟨loc, m, hs ▸ hl⟩
    · cases h
    · cases h
    · cases h
  · rintro ⟨loc, m, hl⟩
    unfold read
    rw [hl]
    rfl

/-- **What was put is read.** -/
theorem read_put {t : Target} (hl : fs.locate true p = .ok t) (hw : t.Writable) (m : Nat)
    (c : Octets) : (fs.put t.location (.file m c)).read p = .ok c := by
  have hput := hw.mayPut hl m c
  have hnew := locate_put hput hl
  rw [hput.find?_put, if_pos rfl, hw.1] at hnew
  exact read_eq_ok_iff.mpr ⟨t.location, m, hnew⟩

/-- **What was read elsewhere is still read.** -/
theorem read_put_ne {loc : Location} {m : Nat} {c : Octets} (hput : fs.MayPut loc (.file m c))
    {t : Target} (hl : fs.locate true p = .ok t) (hne : t.location ≠ loc) :
    (fs.put loc (.file m c)).read p = fs.read p := by
  have hnew := locate_put hput hl
  rw [hput.find?_put, if_neg hne, ← locate_entry hl] at hnew
  unfold read
  rw [hnew, hl]

end RootAuthority.FileSystem
