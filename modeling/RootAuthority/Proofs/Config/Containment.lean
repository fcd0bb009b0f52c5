import RootAuthority.Proofs.Config.Rules
import RootAuthority.Proofs.Storage.Entry

/-!
# Where the files of a configuration are kept

The rules refuse file names with separators, so that what is put behind the path of the storage
directory is one name. That is not enough to stay in the directory: one dot names the directory
itself and two dots the one above, and both pass. All other names lead to an entry of the directory
(`Config.resolve_isEntryOf_iff`).
-/

namespace RootAuthority

/-- The path of a file, where there is a storage directory. -/
theorem Locator.resolve_of_directory {l : Locator} {dir : Path} (hdir : l.directory = some dir)
    (file : String) (fs : FileSystem) : (l.resolve file fs).1 = dir.join file := by
  unfold resolve
  rw [hdir]

namespace Config

variable {text : String} {c : Config} {dir : Path}

/-- Both names of an accepted configuration are names and not paths. -/
theorem IsUsable.isFileName (h : c.IsUsable) :
    ∀ file ∈ [c.storage.certificateFile, c.storage.keyFile], IsFileName file := by
  simp only [List.forall_mem_cons, List.not_mem_nil, false_implies, implies_true, and_true]
  exact ⟨h.certificateFile, h.keyFile⟩

/-- **Where the files of an accepted configuration are kept**: each path is that of the storage
    directory with the file's name as one ordinary step more, exactly if the name is neither one dot
    nor two. By its steps the path with one dot is that of the directory, unless that is empty, and
    the path with two dots goes up. On every file system where the directory is there, the path
    leads to the entry with that name in it, with one dot to the directory itself and with two to
    the one above. The two paths never have the same steps. -/
theorem resolve_isEntryOf_iff (env : Environment) (hparse : parse text = .ok c)
    (hdir : (c.locator env).1.directory = some dir) (fs : FileSystem) :
    (∀ file ∈ [c.storage.certificateFile, c.storage.keyFile],
      (∀ entry, Path.IsEntryOf ((c.locator env).1.resolve file fs).1 dir entry ↔
        entry = file ∧ file ≠ "." ∧ file ≠ "..") ∧
      Path.steps ((c.locator env).1.resolve file fs).1
        = dir.steps ++ (if file = "." ∧ dir ≠ "" then [] else [file]) ∧
      ∀ (now : FileSystem) t m, now.locate true dir = .ok t → t.entry? = some (.directory m) →
        FileSystem.pathFault? ((c.locator env).1.resolve file fs).1 = none →
        file.utf8ByteSize ≤ FileSystem.nameLimit →
        ∃ target, now.locate false ((c.locator env).1.resolve file fs).1 = .ok target ∧
          target.location = if file = "." then t.location
            else if file = ".." then t.location.dropLast else t.location ++ [file]) ∧
    Path.steps ((c.locator env).1.resolve c.storage.certificateFile fs).1
      ≠ Path.steps ((c.locator env).1.resolve c.storage.keyFile fs).1 := by
  obtain ⟨-, husable⟩ := parse_eq_ok_iff.mp hparse
  simp only [Locator.resolve_of_directory hdir]
  constructor
  · intro file hfile
    have hname := husable.isFileName file hfile
    refine ⟨Path.isEntryOf_join_iff dir hname.slash hname.nonempty,
      Path.steps_join dir hname.slash hname.nonempty, ?_⟩
    intro now t m hlocate hentry hfault hshort
    exact ⟨_, FileSystem.locate_join hlocate hname.slash hname.nonempty hshort hfault hentry, rfl⟩
  · exact Path.steps_join_ne dir husable.certificateFile.slash husable.certificateFile.nonempty
      husable.keyFile.slash husable.keyFile.nonempty husable.filesApart

/-- With the usual file names the certificate is an entry of the directory that is given. -/
theorem resolve_isEntryOf_given :
    ∃ c, parse "storage: \x7bdirectory: /store\x7d" = .ok c ∧
      (c.locator ⟨none, none⟩).1.directory = some "/store" ∧
      Path.IsEntryOf ((c.locator ⟨none, none⟩).1.resolve c.storage.certificateFile ⟨[], []⟩).1
        "/store" "ca.der" := by
  have hparse : parse "storage: \x7bdirectory: /store\x7d" = .ok { default with
      storage := { StorageSettings.default with directory := some "/store" } } := by
    decide +kernel
  have hentry := (resolve_isEntryOf_iff ⟨none, none⟩ hparse rfl ⟨[], []⟩).1 "ca.der"
    List.mem_cons_self
  exact ⟨_, hparse, rfl, (hentry.1 "ca.der").mpr ⟨rfl, by decide, by decide⟩⟩

/-- **A certificate can be kept outside the storage directory**: two dots are accepted as its file
    name, and its path is that of the directory above. -/
theorem parse_accepts_parent :
    ∃ c, parse "storage: \x7bdirectory: /store, cert_file: ..\x7d" = .ok c ∧
      (c.locator ⟨none, none⟩).1.directory = some "/store" ∧
      ((c.locator ⟨none, none⟩).1.resolve c.storage.certificateFile ⟨[], []⟩).1 = "/store/.." ∧
      ∀ entry, ¬Path.IsEntryOf "/store/.." "/store" entry := by
  have hparse : parse "storage: \x7bdirectory: /store, cert_file: ..\x7d" = .ok { default with
      storage := { StorageSettings.default with
        directory := some "/store", certificateFile := ".." } } := by
    decide +kernel
  have hpath : Path.join "/store" ".." = "/store/.." := by decide
  refine ⟨_, hparse, rfl, hpath, fun entry h => ?_⟩
  rw [← hpath] at h
  exact ((Path.isEntryOf_join_iff "/store" (by decide) (by decide) entry).mp h).2.2 rfl

end Config

end RootAuthority
