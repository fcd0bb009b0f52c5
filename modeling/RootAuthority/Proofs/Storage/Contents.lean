import RootAuthority.Proofs.Storage.Locator

/-!
# Two files that are written in turn

What restricted writes under two paths do to each other, without a word about the places where the
paths lead: the file written last under a path is the one found there (`FileSystem.Contains`), and
paths that do not lead to the same place (`FileSystem.Apart`) do not disturb each other, however
often files are written under either of them. A path that could be written once can always be
written (`FileSystem.CanWrite`).
-/

namespace RootAuthority

namespace FileSystem

variable {fs fs' : FileSystem} {p q r : Path} {contents other : Octets}

/-- **A file written in the restricted way is found under the path.** -/
def Contains (fs : FileSystem) (p : Path) (contents : Octets) : Prop :=
  ∃ loc, fs.locate true p = .ok ⟨loc, some (.file artifactMode contents), false⟩

/-- **Two paths do not lead to the same place.** -/
def Apart (fs : FileSystem) (p q : Path) : Prop :=
  ∀ t t', fs.locate true p = .ok t → fs.locate true q = .ok t' → t.location ≠ t'.location

/-- **What is written under the first path is not written under the second**: they are apart as far as
    the first can be written at all. -/
def Spares (fs : FileSystem) (p q : Path) : Prop :=
  ∀ t t', fs.locate true p = .ok t → t.Writable → fs.locate true q = .ok t' →
    t.location ≠ t'.location

/-- The path leads to a place where nothing or a file is. -/
def CanWrite (fs : FileSystem) (p : Path) : Prop := ∃ t, fs.locate true p = .ok t ∧ t.Writable

theorem apart_of_locate {t t' : Target} (ht : fs.locate true p = .ok t)
    (ht' : fs.locate true q = .ok t') (hne : t.location ≠ t'.location) : fs.Apart p q := by
  intro u u' hu hu'
  obtain rfl := Except.ok.inj (ht.symm.trans hu)
  obtain rfl := Except.ok.inj (ht'.symm.trans hu')
  exact hne

theorem Apart.symm (h : fs.Apart p q) : fs.Apart q p :=
  fun t t' ht ht' heq => h t' t ht' ht heq.symm

theorem Contains.read (h : fs.Contains p contents) : fs.read p = .ok contents := by
  obtain ⟨loc, hloc⟩ := h
  exact read_eq_ok_iff.mpr ⟨loc, artifactMode, hloc⟩

/-- **What was written is there.** -/
theorem contains_of_write (h : fs.writeRestricted p contents = .ok fs') :
    fs'.Contains p contents := by
  obtain ⟨t, ht, hw, rfl⟩ := writeRestricted_ok h
  have hput := hw.mayPut ht artifactMode contents
  have hnew := locate_put hput ht
  rw [hput.find?_put, if_pos rfl, hw.1] at hnew
  exact ⟨t.location, hnew⟩

/-- **What was there under the other path is still there.** -/
theorem Contains.write (hq : fs.Contains q other) (hapart : fs.Apart p q)
    (h : fs.writeRestricted p contents = .ok fs') : fs'.Contains q other := by
  obtain ⟨t, ht, hw, rfl⟩ := writeRestricted_ok h
  obtain ⟨loc, hloc⟩ := hq
  have hput := hw.mayPut ht artifactMode contents
  have hne := hapart t _ ht hloc
  have hnew := locate_put hput hloc
  rw [hput.find?_put, if_neg hne.symm, ← locate_entry hloc] at hnew
  exact ⟨loc, hnew⟩

/-- Paths stay apart, whatever file is put. -/
theorem Apart.put (hapart : fs.Apart p q) {loc : Location} {m : Nat} {c : Octets}
    (hput : fs.MayPut loc (.file m c)) : (fs.put loc (.file m c)).Apart p q := by
  intro u u' hu hu'
  obtain ⟨v, hv, rfl⟩ := locate_of_put hput hu
  obtain ⟨v', hv', rfl⟩ := locate_of_put hput hu'
  exact hapart v v' hv hv'

/-- Paths stay apart, whatever is written. -/
theorem Apart.write (hapart : fs.Apart p q) (h : fs.writeRestricted r contents = .ok fs') :
    fs'.Apart p q := by
  obtain ⟨t, ht, hw, rfl⟩ := writeRestricted_ok h
  exact hapart.put (hw.mayPut ht artifactMode contents)

theorem Apart.spares (h : fs.Apart p q) : fs.Spares p q := fun t t' ht _ ht' => h t t' ht ht'

/-- What can be written after a file was put could be written before. -/
theorem writable_of_put {loc : Location} {m : Nat} {c : Octets}
    (hput : fs.MayPut loc (.file m c)) {t : Target} (ht : fs.locate true p = .ok t)
    (hw : Target.Writable ⟨t.location, (fs.put loc (.file m c)).find? t.location, t.slash⟩) :
    t.Writable := by
  obtain ⟨hslash, hentry⟩ := hw
  refine ⟨hslash, ?_⟩
  rw [locate_entry ht]
  rw [hput.find?_put] at hentry
  split at hentry
  · next heq =>
    rw [heq]
    exact hput
  · exact hentry

/-- A path spares another, whatever file is put. -/
theorem Spares.put (h : fs.Spares p q) {loc : Location} {m : Nat} {c : Octets}
    (hput : fs.MayPut loc (.file m c)) : (fs.put loc (.file m c)).Spares p q := by
  intro u u' hu hw hu'
  obtain ⟨v, hv, rfl⟩ := locate_of_put hput hu
  obtain ⟨v', hv', rfl⟩ := locate_of_put hput hu'
  exact h v v' hv (writable_of_put hput hv hw) hv'

/-- A path spares another, whatever is written. -/
theorem Spares.write (h : fs.Spares p q) (hwrite : fs.writeRestricted r contents = .ok fs') :
    fs'.Spares p q := by
  obtain ⟨t, ht, hw, rfl⟩ := writeRestricted_ok hwrite
  exact h.put (hw.mayPut ht artifactMode contents)

/-- **What is read stays the same** when a file is put where a path leads that spares it. -/
theorem Spares.read_put (h : fs.Spares q p) (hread : fs.read p = .ok contents) {t : Target}
    (ht : fs.locate true q = .ok t) (hw : t.Writable) (m : Nat) (c : Octets) :
    (fs.put t.location (.file m c)).read p = .ok contents := by
  obtain ⟨loc, m', hloc⟩ := read_eq_ok_iff.mp hread
  rw [read_put_ne (hw.mayPut ht m c) hloc (h t _ ht hw hloc).symm, hread]

/-- And when a file is written there. -/
theorem Spares.read_write (h : fs.Spares q p) (hread : fs.read p = .ok contents)
    (hwrite : fs.writeRestricted q other = .ok fs') : fs'.read p = .ok contents := by
  obtain ⟨t, ht, hw, rfl⟩ := writeRestricted_ok hwrite
  exact h.read_put hread ht hw artifactMode other

theorem CanWrite.write_ok (h : fs.CanWrite p) (contents : Octets) :
    ∃ fs', fs.writeRestricted p contents = .ok fs' := by
  obtain ⟨t, ht, hw⟩ := h
  exact ⟨_, writeRestricted_eq ht hw contents⟩

/-- What can be written can still be written after another write. -/
theorem CanWrite.write (hp : fs.CanWrite p) (h : fs.writeRestricted r contents = .ok fs') :
    fs'.CanWrite p := by
  obtain ⟨t, ht, hw, rfl⟩ := writeRestricted_ok h
  obtain ⟨u, hu, hslash, hentry⟩ := hp
  have hput := hw.mayPut ht artifactMode contents
  refine ⟨_, locate_put hput hu, hslash, ?_⟩
  rw [hput.find?_put]
  split
  · exact .inr ⟨artifactMode, contents, rfl⟩
  · rw [← locate_entry hu]
    exact hentry

end FileSystem

/-- Nothing is left to prepare after a restricted write, either. -/
theorem Locator.Settled.write {l : Locator} {fs fs' : FileSystem} {p : Path} {contents : Octets}
    (hs : l.Settled fs) (h : fs.writeRestricted p contents = .ok fs') : l.Settled fs' := by
  obtain ⟨t, ht, hw, rfl⟩ := FileSystem.writeRestricted_ok h
  exact hs.put (hw.mayPut ht artifactMode contents)

end RootAuthority
