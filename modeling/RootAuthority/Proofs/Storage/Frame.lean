import RootAuthority.Proofs.Storage.Contents

/-!
# What stays as it is

Preparing a storage directory creates directories where nothing was, one by one
(`Locator.prepare_induction`), and a restricted write puts one file. All other entries stay as they
are: `FileSystem.Frame` says so of any number of such changes, with the places of the files listed.

* `FileSystem.Frame.prepare`, `FileSystem.Frame.write`: what each change does to a frame;
* `FileSystem.LeadsTo.put`: paths lead to the same places after a change;
* `FileSystem.locate_prepare`: files are where they were after preparing.
-/

namespace RootAuthority

namespace FileSystem

variable {fs fs' : FileSystem} {p q : Path} {loc : Location}

/-! ## 1. Paths after a put -/

/-- **The path leads to the location**, whatever is there. -/
def LeadsTo (fs : FileSystem) (p : Path) (loc : Location) : Prop :=
  ∃ t, fs.locate true p = .ok t ∧ t.location = loc

/-- **A path leads to the same place after a put.** -/
theorem LeadsTo.put (h : fs.LeadsTo p loc) {loc' : Location} {e : Entry}
    (hput : fs.MayPut loc' e) : (fs.put loc' e).LeadsTo p loc := by
  obtain ⟨t, ht, rfl⟩ := h
  unfold LeadsTo locate at *
  split at ht
  · cases ht
  · obtain ⟨slash, hnext, -⟩ := (arrives_iff.mpr ht).put hput
    exact ⟨_, hnext.walk, rfl⟩

/-- A path that does not end in slashes leads to the same place, and still does not. -/
theorem locate_put_plain {loc' : Location} {e : Entry} (hput : fs.MayPut loc' e) {t : Target}
    (h : fs.locate true p = .ok t) (ht : t.slash = false) : (fs.put loc' e).locate true p
      = .ok ⟨t.location, (fs.put loc' e).find? t.location, false⟩ := by
  unfold locate at h ⊢
  split at h
  · cases h
  · exact ((arrives_iff.mpr h).put_plain hput ht).walk

/-- **A directory that was created** is put at a vacant place, to which its path leads. -/
theorem leadsTo_of_makeDirectory {mode : Nat} (h : fs.makeDirectory mode p = .ok fs') :
    ∃ loc, fs.MayPut loc (.directory (grantedMode mode)) ∧
      fs' = fs.put loc (.directory (grantedMode mode)) ∧ fs'.LeadsTo p loc := by
  obtain ⟨t, ns, hp, hns, ht, harrives, -, rfl⟩ := makeDirectory_ok h
  have hput : fs.MayPut t.location (.directory (grantedMode mode)) := mayPut_directory harrives ht
  have hnew : (fs.put t.location (.directory (grantedMode mode))).find? t.location
      = some (.directory (grantedMode mode)) := by
    rw [hput.find?_put, if_pos rfl]
  obtain ⟨slash, hnext, -⟩ := harrives.put hput
  have henters := hnext.enters hnew
  refine ⟨t.location, hput, rfl, ⟨_, some (.directory (grantedMode mode)), false⟩, ?_, rfl⟩
  have hwalk := (henters.arrives hns.symm).walk
  unfold locate
  rw [hp]
  rw [hnew] at hwalk
  exact hwalk

/-- **What the creation of each directory keeps**, the creation of all keeps. -/
theorem makeDirectories_induction {motive : FileSystem → Prop} {mode : Nat} :
    ∀ {paths : List Path} {fs : FileSystem},
      (∀ p ∈ paths, ∀ fs fs' : FileSystem, fs.makeDirectory mode p = .ok fs' →
        motive fs → motive fs') → motive fs → motive (makeDirectories mode paths fs).2
  | [], _, _, h => h
  | p :: above, fs, hmake, h => by
      have habove : motive (makeDirectories mode above fs).2 :=
        makeDirectories_induction (fun q hq => hmake q (List.mem_cons_of_mem p hq)) h
      have hfirst := hmake p List.mem_cons_self
      unfold makeDirectories
      split
      · next hp => exact hfirst _ _ hp h
      · split
        · next hrun =>
          rw [hrun] at habove
          exact habove
        · next hrun =>
          rw [hrun] at habove
          split
          · next hp => exact hfirst _ _ hp habove
          · split
            · exact habove
            · exact habove
      · split
        · exact h
        · exact h

end FileSystem

namespace Locator

variable {l : Locator} {fs : FileSystem}

/-- **The paths at which directories are created**: the storage directory and those above it. -/
def chain (l : Locator) : List Path :=
  match l.directory with
  | none => []
  | some dir => dir.ancestors

/-- **What the creation of each directory keeps**, preparing keeps. -/
theorem prepare_induction {motive : FileSystem → Prop}
    (make : ∀ p ∈ l.chain, ∀ fs fs' : FileSystem,
      fs.makeDirectory directoryMode p = .ok fs' → motive fs → motive fs')
    (h : motive fs) : motive (l.prepare fs) := by
  obtain ⟨_ | dir⟩ := l
  · exact h
  · show motive (ensureDirectory dir fs).1
    rw [ensureDirectory_fst]
    split
    · exact h
    · exact FileSystem.makeDirectories_induction make h

end Locator

namespace FileSystem

variable {fs fs' before : FileSystem} {l : Locator} {p : Path} {loc : Location}
  {contents : Octets} {places : List Location}

/-- **A file is found in the same place after preparing.** -/
theorem locate_prepare (l : Locator) {m : Nat} {c : Octets}
    (h : fs.locate true p = .ok ⟨loc, some (.file m c), false⟩) :
    (l.prepare fs).locate true p = .ok ⟨loc, some (.file m c), false⟩ := by
  refine Locator.prepare_induction
    (motive := fun fs => fs.locate true p = .ok ⟨loc, some (.file m c), false⟩)
    (fun q _ fs fs' hmake h => ?_) h
  obtain ⟨new, hput, rfl, -⟩ := leadsTo_of_makeDirectory hmake
  have hentry := locate_entry h
  have hne : loc ≠ new := by
    rintro rfl
    have hvacant : fs.find? loc = none := hput
    exact nomatch hentry.trans hvacant
  have hnew := locate_put_plain hput h rfl
  rw [hput.find?_put, if_neg hne, ← hentry] at hnew
  exact hnew

/-- What is read is read after preparing. -/
theorem read_prepare (l : Locator) (h : fs.read p = .ok contents) :
    (l.prepare fs).read p = .ok contents := by
  obtain ⟨loc, m, hloc⟩ := read_eq_ok_iff.mp h
  exact read_eq_ok_iff.mpr ⟨loc, m, locate_prepare l hloc⟩

/-- **What was written is there after preparing.** -/
theorem Contains.prepare (l : Locator) (h : fs.Contains p contents) :
    (l.prepare fs).Contains p contents := by
  obtain ⟨loc, hloc⟩ := h
  exact ⟨loc, locate_prepare l hloc⟩

theorem LeadsTo.write (h : fs.LeadsTo p loc) (hwrite : fs.writeRestricted q contents = .ok fs') :
    fs'.LeadsTo p loc := by
  obtain ⟨t, ht, hw, rfl⟩ := writeRestricted_ok hwrite
  exact h.put (hw.mayPut ht artifactMode contents)

/-- Where something was written, something else can be written. -/
theorem canWrite_of_contains (h : fs.Contains p contents) : fs.CanWrite p := by
  obtain ⟨loc, hloc⟩ := h
  exact ⟨_, hloc, rfl, .inr ⟨_, _, rfl⟩⟩

/-! ## 2. Frames -/

/-- **All entries but those at some places are as they were before**, or are directories that were
    created for the paths of a chain where nothing was. -/
structure Frame (chain : List Path) (places : List Location) (before after : FileSystem) :
    Prop where
  workingDirectory : after.workingDirectory = before.workingDirectory
  entry : ∀ loc, loc ∉ places → after.find? loc = before.find? loc ∨
    before.find? loc = none ∧ after.find? loc = some (.directory 0o700) ∧
      ∃ p ∈ chain, after.LeadsTo p loc

namespace Frame

variable {chain : List Path}

theorem refl (fs : FileSystem) : Frame chain [] fs fs := ⟨rfl, fun _ _ => .inl rfl⟩

/-- One more directory. -/
theorem makeDirectory (h : Frame chain places before fs) (hp : p ∈ chain)
    (hmake : fs.makeDirectory Locator.directoryMode p = .ok fs') :
    Frame chain places before fs' := by
  obtain ⟨new, hput, rfl, hleads⟩ := leadsTo_of_makeDirectory hmake
  refine ⟨h.workingDirectory, fun loc hloc => ?_⟩
  have hold := h.entry loc hloc
  rw [hput.find?_put]
  split
  · next heq =>
    subst heq
    refine .inr ⟨?_, rfl, p, hp, hleads⟩
    have hvacant : fs.find? loc = none := hput
    rcases hold with hsame | ⟨hnone, -, -⟩
    · rw [← hsame, hvacant]
    · exact hnone
  · refine hold.imp_right fun ⟨hnone, hnew, q, hq, hleads⟩ => ⟨hnone, hnew, q, hq, hleads.put hput⟩

/-- **Preparing the storage directory keeps a frame.** -/
theorem prepare (h : Frame l.chain places before fs) :
    Frame l.chain places before (l.prepare fs) :=
  Locator.prepare_induction (motive := Frame l.chain places before)
    (fun _ hp _ _ hmake h => h.makeDirectory hp hmake) h

/-- **A restricted write adds its place to the frame.** -/
theorem write (h : Frame chain places before fs)
    (hwrite : fs.writeRestricted p contents = .ok fs') :
    ∃ loc, fs'.locate true p = .ok ⟨loc, some (.file artifactMode contents), false⟩ ∧
      Frame chain (loc :: places) before fs' := by
  obtain ⟨t, ht, hw, rfl⟩ := writeRestricted_ok hwrite
  have hput := hw.mayPut ht artifactMode contents
  have hnew := locate_put hput ht
  rw [hput.find?_put, if_pos rfl, hw.1] at hnew
  refine ⟨t.location, hnew, h.workingDirectory, fun loc hloc => ?_⟩
  rw [List.mem_cons, not_or] at hloc
  rw [hput.find?_put, if_neg hloc.1]
  refine (h.entry loc hloc.2).imp_right fun ⟨hnone, hdirectory, q, hq, hleads⟩ => ?_
  exact ⟨hnone, hdirectory, q, hq, hleads.put hput⟩

end Frame

end FileSystem

end RootAuthority
