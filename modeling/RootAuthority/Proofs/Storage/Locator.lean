import RootAuthority.Proofs.Storage.Directory
import RootAuthority.Proofs.Storage.Write
import RootAuthority.Storage.Locator

/-!
# Asking for a path prepares the storage directory once

The path of a file does not depend on the file system (`Locator.pathOf`); what asking for it does to
the file system is the same for all files (`Locator.prepare`).

* `Locator.settled_prepare`: after it was asked for once, nothing is left to prepare, and
* `Locator.prepare_of_settled`: then asking again changes nothing;
* `Locator.Settled.put`: this stays so when files are written.
-/

namespace RootAuthority.Locator

variable {l : Locator} {fs : FileSystem}

/-- The path of a file in the storage directory. -/
def pathOf (l : Locator) (file : String) : Path :=
  match l.directory with
  | none => file
  | some dir => dir.join file

/-- The file system after a path was asked for. -/
def prepare (l : Locator) (fs : FileSystem) : FileSystem :=
  match l.directory with
  | none => fs
  | some dir => (ensureDirectory dir fs).1

/-- **The answer to a path asked for**, with some events. -/
theorem resolve_eq (l : Locator) (file : String) (fs : FileSystem) :
    ∃ events, l.resolve file fs = (l.pathOf file, l.prepare fs, events) := by
  unfold resolve pathOf prepare
  cases l.directory with
  | none => exact ⟨_, rfl⟩
  | some dir => exact ⟨_, rfl⟩

theorem ensureDirectory_fst (dir : Path) (fs : FileSystem) :
    (ensureDirectory dir fs).1 = if fs.isDirectory dir then fs
      else (FileSystem.makeDirectories directoryMode dir.ancestors fs).2 := by
  unfold ensureDirectory
  split
  · rfl
  · split
    · next h => rw [h]
    · next h => rw [h]
    · next h => rw [h]

/-- **Nothing is left to prepare**: the storage directory is there or cannot be created. -/
def Settled (l : Locator) (fs : FileSystem) : Prop :=
  match l.directory with
  | none => True
  | some dir => fs.isDirectory dir = true ∨
      FileSystem.Settled directoryMode dir.ancestors fs

/-- **Where nothing is left to prepare nothing changes.** -/
theorem prepare_of_settled (h : l.Settled fs) : l.prepare fs = fs := by
  obtain ⟨_ | dir⟩ := l
  · rfl
  · show (ensureDirectory dir fs).1 = fs
    rw [ensureDirectory_fst]
    split
    · rfl
    · next hno =>
      rcases h with h | h
      · exact (hno h).elim
      · exact FileSystem.makeDirectories_of_settled h

/-- **After a path was asked for, nothing is left to prepare.** -/
theorem settled_prepare (hw : fs.WellFormed) : l.Settled (l.prepare fs) := by
  obtain ⟨_ | dir⟩ := l
  · trivial
  · show (ensureDirectory dir fs).1.isDirectory dir = true ∨
      FileSystem.Settled directoryMode dir.ancestors (ensureDirectory dir fs).1
    rw [ensureDirectory_fst]
    split
    · next hd => exact .inl hd
    · exact .inr (FileSystem.prepared_makeDirectories hw (Path.isChain_ancestors dir)).settled

theorem wellFormed_prepare (hw : fs.WellFormed) : (l.prepare fs).WellFormed := by
  obtain ⟨_ | dir⟩ := l
  · exact hw
  · show (ensureDirectory dir fs).1.WellFormed
    rw [ensureDirectory_fst]
    split
    · exact hw
    · exact (FileSystem.prepared_makeDirectories hw (Path.isChain_ancestors dir)).wellFormed

/-- **Nothing is left to prepare after a file was put, either.** -/
theorem Settled.put (h : l.Settled fs) {loc : Location} {m : Nat} {c : Octets}
    (hput : fs.MayPut loc (.file m c)) : l.Settled (fs.put loc (.file m c)) := by
  obtain ⟨_ | dir⟩ := l
  · trivial
  · exact Or.imp (FileSystem.isDirectory_put hput) (FileSystem.Settled.put hput) h

end RootAuthority.Locator
