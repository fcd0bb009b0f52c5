import RootAuthority.Proofs.Storage.Frame

/-!
# What asking for a file's path does

Asking a locator for the path of a file creates the storage directory, with those above it that are
missing. How that ends is one of four cases (`Locator.Ensures`): the directory was there, it was
created, something else stands in its place, or it could not be created, which is reported once.

`Locator.resolve_ensures` puts together what holds in each of them: the answer is the path of the file
in the storage directory, new entries are directories for their owner alone, nothing that was there
has changed, and asking once more changes nothing, even after a creation that failed half-way.
-/

namespace RootAuthority

namespace Path

variable {p q : Path}

/-- A path that is not empty comes first among its ancestors. -/
theorem ancestors_of_ne_empty (h : p ≠ "") : ∃ above, ancestors p = p :: above := by
  cases hsteps : (steps p).reverse with
  | cons n ns => exact ⟨_, ancestors_eq hsteps⟩
  | nil =>
    have hnil : steps p = [] := List.reverse_eq_nil_iff.mp hsteps
    cases ha : isAbsolute p with
    | true =>
      refine ⟨[], ?_⟩
      simp [ancestors, hnil, ha]
    | false =>
      obtain ⟨first, rest, -, -, hcons⟩ := steps_of_relative ha h
      exact nomatch hnil.symm.trans hcons

/-- A name without a slash is joined behind one slash. -/
theorem join_of_name (hp : p ≠ "") (hq : '/' ∉ q.toList) :
    join p q = p ++ (if p.toList.getLast? = some '/' then "" else "/") ++ q := by
  have hrelative : isAbsolute q = false := decide_eq_false fun h => hq (List.mem_of_mem_head? h)
  rw [join, hrelative, if_neg (by simp)]
  have hempty : p.isEmpty = false := by simpa using hp
  simp only [hempty, Bool.false_eq_true, false_or]
  split
  · rw [String.append_empty]
  · rfl

end Path

namespace FileSystem

variable {fs fs' : FileSystem} {p : Path} {mode : Nat}

/-- **A directory that was created is one.** -/
theorem isDirectory_makeDirectory (h : fs.makeDirectory mode p = .ok fs') :
    fs'.isDirectory p = true := by
  obtain ⟨loc, hput, rfl, t, ht, rfl⟩ := leadsTo_of_makeDirectory h
  refine isDirectory_iff.mpr ⟨t, grantedMode mode, ht, ?_⟩
  rw [locate_entry ht, hput.find?_put, if_pos rfl]

/-- **A run over a path and those above it that does not fail** leaves a directory at the path. -/
theorem isDirectory_makeDirectories {above : List Path}
    (h : (makeDirectories mode (p :: above) fs).1 = .ok ()) :
    (makeDirectories mode (p :: above) fs).2.isDirectory p = true := by
  cases hfirst : fs.makeDirectory mode p with
  | ok fs₁ =>
    rw [makeDirectories, hfirst]
    exact isDirectory_makeDirectory hfirst
  | error e =>
    by_cases hne : e = .noSuchEntry
    · subst hne
      rw [makeDirectories, hfirst] at h ⊢
      dsimp only at h ⊢
      cases hrun : makeDirectories mode above fs with
      | mk result fs₁ =>
        rw [hrun] at h
        cases result with
        | error e => cases h
        | ok _ =>
          dsimp only at h ⊢
          cases hagain : fs₁.makeDirectory mode p with
          | ok fs₂ => exact isDirectory_makeDirectory hagain
          | error e =>
            rw [hagain] at h
            dsimp only at h ⊢
            split at h
            · next hdirectory =>
              rw [if_pos hdirectory]
              exact hdirectory
            · cases h
    · rw [makeDirectories_error hfirst hne] at h ⊢
      split at h
      · next hdirectory =>
        rw [if_pos hdirectory]
        exact hdirectory
      · cases h

end FileSystem

namespace Locator

variable {fs : FileSystem} {dir : Path} {file : String}

/-- **How the creation of a storage directory ends**, with what is reported. -/
inductive Ensures (dir : Path) (before after : FileSystem) : List LogEvent → Prop
  /-- The directory is there. -/
  | present (h : before.isDirectory dir = true) (same : after = before) : Ensures dir before after []
  /-- It was created. -/
  | created (missing : before.isDirectory dir = false) (h : after.isDirectory dir = true) :
      Ensures dir before after [⟨.storage, .debug, "created storage directory " ++ dir⟩]
  /-- Something that is no directory stands in its place, or in the place of one above it. -/
  | occupied (he : (FileSystem.makeDirectories directoryMode dir.ancestors before).1
        = .error .alreadyExists)
      (h : after.isDirectory dir = false) : Ensures dir before after []
  /-- It could not be created for another reason. -/
  | failed {e : FileError} (hne : e ≠ .alreadyExists)
      (he : (FileSystem.makeDirectories directoryMode dir.ancestors before).1 = .error e)
      (h : after.isDirectory dir = false) :
      Ensures dir before after
        [⟨.storage, .warn, "failed to create storage directory " ++ dir ++ ": " ++ e.message⟩]

/-- **Every creation ends in one of these ways.** -/
theorem ensures_ensureDirectory (hw : fs.WellFormed) (hdir : dir ≠ "") :
    Ensures dir fs (ensureDirectory dir fs).1 (ensureDirectory dir fs).2 := by
  obtain ⟨above, habove⟩ := Path.ancestors_of_ne_empty hdir
  have hprepared : FileSystem.Prepared directoryMode dir.ancestors
      (FileSystem.makeDirectories directoryMode dir.ancestors fs).1
      (FileSystem.makeDirectories directoryMode dir.ancestors fs).2 :=
    FileSystem.prepared_makeDirectories hw (Path.isChain_ancestors dir)
  have hcreated (h : (FileSystem.makeDirectories directoryMode dir.ancestors fs).1 = .ok ()) :
      (FileSystem.makeDirectories directoryMode dir.ancestors fs).2.isDirectory dir = true := by
    rw [habove] at h ⊢
    exact FileSystem.isDirectory_makeDirectories h
  have hmissing {e : FileError}
      (he : (FileSystem.makeDirectories directoryMode dir.ancestors fs).1 = .error e) :
      (FileSystem.makeDirectories directoryMode dir.ancestors fs).2.isDirectory dir = false :=
    hprepared.missing e he dir (by rw [habove]; rfl)
  unfold ensureDirectory
  split
  · next hpresent => exact .present hpresent rfl
  · next hno =>
    cases hrun : FileSystem.makeDirectories directoryMode dir.ancestors fs with
    | mk result after =>
      rw [hrun] at hcreated hmissing
      cases result with
      | ok _ => exact .created (Bool.eq_false_iff.mpr hno) (hcreated rfl)
      | error e =>
        by_cases hexists : e = .alreadyExists
        · subst hexists
          exact .occupied (by rw [hrun]) (hmissing rfl)
        · have hevents : Ensures dir fs after [⟨.storage, .warn,
              "failed to create storage directory " ++ dir ++ ": " ++ e.message⟩] :=
            .failed hexists (by rw [hrun]) (hmissing rfl)
          cases e with
          | alreadyExists => exact (hexists rfl).elim
          | _ => exact hevents

/-- **What asking for the path of a file does.** The answer is the path of the file in the storage
    directory, however the creation of the directory ends. What is new are directories for their
    owner alone, to which paths above the file lead; all else is as it was. To ask again gives the
    same answer and changes nothing. -/
theorem resolve_ensures (hw : fs.WellFormed) (hdir : dir ≠ "") (hfile : '/' ∉ file.toList) :
    ∃ after events, (inDirectory dir).resolve file fs
        = (dir ++ (if dir.toList.getLast? = some '/' then "" else "/") ++ file, after, events) ∧
      Ensures dir fs after events ∧
      after.workingDirectory = fs.workingDirectory ∧
      (∀ loc, after.find? loc = fs.find? loc ∨
        fs.find? loc = none ∧ after.find? loc = some (.directory 0o700) ∧
          ∃ p ∈ dir.ancestors, after.LeadsTo p loc) ∧
      ∃ later, (inDirectory dir).resolve file after
        = (dir ++ (if dir.toList.getLast? = some '/' then "" else "/") ++ file, after, later) := by
  have hframe : FileSystem.Frame dir.ancestors [] fs ((inDirectory dir).prepare fs) :=
    (FileSystem.Frame.refl fs).prepare (l := inDirectory dir)
  have hsettled : (inDirectory dir).prepare ((inDirectory dir).prepare fs)
      = (inDirectory dir).prepare fs := prepare_of_settled (settled_prepare hw)
  have hpath : (inDirectory dir).pathOf file
      = dir ++ (if dir.toList.getLast? = some '/' then "" else "/") ++ file :=
    Path.join_of_name hdir hfile
  obtain ⟨later, hagain⟩ := resolve_eq (inDirectory dir) file ((inDirectory dir).prepare fs)
  rw [hsettled, hpath] at hagain
  refine ⟨(inDirectory dir).prepare fs, (ensureDirectory dir fs).2, ?_,
    ensures_ensureDirectory hw hdir, hframe.workingDirectory, fun loc => ?_, later, hagain⟩
  · rw [← hpath]
    rfl
  · exact hframe.entry loc List.not_mem_nil

/-- A file system with one file. -/
def obstructed : FileSystem := ⟨[(["file"], .file 0o644 [])], []⟩

theorem wellFormed_obstructed : obstructed.WellFormed where
  start := FileSystem.hasDirectory_root _
  parents loc := by
    rintro ⟨m, hm⟩
    by_cases hroot : loc = []
    · rw [hroot]
      exact FileSystem.hasDirectory_root _
    · rw [FileSystem.find?, if_neg hroot, obstructed, List.lookup_cons] at hm
      split at hm
      · cases hm
      · cases hm

/-- The file stands in the way after the first directory was created. -/
theorem resolve_ensures_halfWay : obstructed.WellFormed ∧ "new/../file/x" ≠ "" ∧
    '/' ∉ "ca.der".toList ∧ ∃ after events later,
      (inDirectory "new/../file/x").resolve "ca.der" obstructed
        = ("new/../file/x/ca.der", after, events) ∧
      Ensures "new/../file/x" obstructed after events ∧
      after.find? ["new"] = some (.directory 0o700) ∧
      after.isDirectory "new/../file/x" = false ∧
      (inDirectory "new/../file/x").resolve "ca.der" after
        = ("new/../file/x/ca.der", after, later) := by
  have hdir : "new/../file/x" ≠ "" := by decide
  have hfile : '/' ∉ "ca.der".toList := by decide
  obtain ⟨after, events, h, hensures, -, -, later, hagain⟩ :=
    resolve_ensures wellFormed_obstructed hdir hfile
  have hnew : ((inDirectory "new/../file/x").resolve "ca.der" obstructed).2.1.find? ["new"]
      = some (.directory 0o700) := by
    decide +kernel
  have hno : ((inDirectory "new/../file/x").resolve "ca.der" obstructed).2.1.isDirectory
      "new/../file/x" = false := by
    decide +kernel
  rw [h] at hnew hno
  exact ⟨wellFormed_obstructed, hdir, hfile, after, events, later, h, hensures, hnew, hno, hagain⟩

end Locator

end RootAuthority
