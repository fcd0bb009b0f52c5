import RootAuthority.Proofs.Config.Rules
import RootAuthority.Proofs.Storage.Entry

/-!
# Where the storage directory of a namespace is

Where no directory is given outright, the storage directory is found by joining the namespace to the
user's configuration directory. The rules ask of a namespace only that it is not blank, so it need
not be one segment:

* an absolute namespace is the storage directory itself, wherever that is;
* of a relative one the counting names are read on from the user's directory
  (`Path.steps_join_relative`). The storage directory is strictly inside the user's as long as they
  lead below it and never above it (`Path.isInside_join_iff`), and it is one segment below exactly
  if there is one such name and that does not lead up (`Path.isEntryOf_join_relative_iff`).

A namespace without a slash that is neither one dot nor two is such a segment
(`Config.locator_isInside_iff`).
-/

namespace RootAuthority

namespace Path

variable {dir p q : Path} {name : String}

/-! ## 1. Paths inside a directory -/

/-- **How deep below a place names lead** that are read on so deep below it; nothing, if they lead
    above it on their way. -/
def depth? : (depth : Nat) → List String → Option Nat
  | d, [] => some d
  | d, name :: rest =>
    if name = ".." then
      match d with
      | 0 => none
      | above + 1 => depth? above rest
    else depth? (d + 1) rest

/-- **The path is strictly inside a directory** by its text alone: it goes on where the path of the
    directory ends, ends up below it, and never leads above it. -/
structure IsInside (p dir : Path) : Prop where
  absolute : isAbsolute p = isAbsolute dir
  steps : ∃ ns k, steps p = steps dir ++ ns ∧ depth? 0 ns = some (k + 1)

/-- What is one segment below a directory is inside it. -/
theorem IsEntryOf.isInside (h : p.IsEntryOf dir name) : p.IsInside dir := by
  refine ⟨h.absolute, [name], 0, h.steps, ?_⟩
  rw [depth?, if_neg h.notUp, depth?]

theorem join_of_isAbsolute (dir : Path) (hq : isAbsolute q = true) : dir.join q = q := by
  rw [join, if_pos hq]

/-- **A relative path leads inside a directory** exactly if its counting names do. -/
theorem isInside_join_iff (hdir : dir ≠ "") (hq : isAbsolute q = false) :
    (dir.join q).IsInside dir ↔ ∃ k, depth? 0 (counted (names q)) = some (k + 1) := by
  have hsteps := steps_join_relative hdir hq
  constructor
  · intro h
    obtain ⟨ns, k, hns, hdepth⟩ := h.steps
    rw [hsteps, List.append_cancel_left_eq] at hns
    rw [hns]
    exact ⟨k, hdepth⟩
  · intro h
    obtain ⟨k, hdepth⟩ := h
    exact ⟨isAbsolute_join dir hq, _, k, hsteps, hdepth⟩

/-- **A relative path leads one segment below a directory** exactly if it has one counting name, and
    that does not lead up. -/
theorem isEntryOf_join_relative_iff (hdir : dir ≠ "") (hq : isAbsolute q = false)
    (entry : String) :
    (dir.join q).IsEntryOf dir entry ↔ counted (names q) = [entry] ∧ entry ≠ ".." := by
  have hsteps := steps_join_relative hdir hq
  constructor
  · intro h
    have hentry := h.steps
    rw [hsteps, List.append_cancel_left_eq] at hentry
    exact ⟨hentry, h.notUp⟩
  · intro h
    obtain ⟨hentry, hup⟩ := h
    have hcounts : entry ∈ counted (names q) := by
      rw [hentry]
      exact List.mem_singleton_self entry
    have hne := (List.mem_filter.mp hcounts).2
    simp only [ne_eq, decide_eq_true_eq] at hne
    rw [hentry] at hsteps
    exact ⟨isAbsolute_join dir hq, hsteps, hne.2, hup⟩

end Path

/-! ## 2. The user's configuration directory -/

namespace Environment

variable {env : Environment} {dir : Path}

theorem configDirectory_ne_empty (h : env.configDirectory = some dir) : dir ≠ "" := by
  unfold configDirectory at h
  split at h
  · next hxdg =>
    obtain rfl := Option.some.inj h
    intro hempty
    have habsolute := (Option.filter_eq_some_iff.mp hxdg).2
    rw [hempty] at habsolute
    cases habsolute
  · obtain ⟨home, -, rfl⟩ := Option.map_eq_some_iff.mp h
    unfold Path.join
    rw [if_neg (by decide)]
    split
    · intro hempty
      have hchars := congrArg String.toList hempty
      simp at hchars
    · intro hempty
      have hchars := congrArg String.toList hempty
      simp at hchars

end Environment

/-! ## 3. The storage directory -/

namespace Config

variable {text : String} {c : Config} {env : Environment} {dir : Path}

theorem locator_of_user (hnone : c.storage.directory = none)
    (huser : env.configDirectory = some dir) :
    c.locator env = (⟨some (dir.join c.storage.namespaceSegment)⟩, []) := by
  unfold locator
  rw [hnone]
  simp only [Locator.forUser, huser]

/-- A usable configuration has a namespace. -/
theorem IsUsable.namespace_ne_empty (h : c.IsUsable) : c.storage.namespaceSegment ≠ "" := by
  intro hempty
  have hblank := h.namespaceSegment
  rw [hempty] at hblank
  cases hblank

/-- **Where the storage directory of an accepted configuration is** that gives none outright, for a
    user with a configuration directory: at the namespace, joined to that directory. A namespace
    without a slash that is neither one dot nor two is one segment below the user's directory, and
    so strictly inside it. Of any other relative namespace the counting names decide both. An
    absolute one is the storage directory itself, whatever the user's directory is. -/
theorem locator_isInside_iff (hparse : parse text = .ok c) (hnone : c.storage.directory = none)
    (huser : env.configDirectory = some dir) :
    c.locator env = (⟨some (dir.join c.storage.namespaceSegment)⟩, []) ∧
    ('/' ∉ c.storage.namespaceSegment.toList →
      c.storage.namespaceSegment ≠ "." → c.storage.namespaceSegment ≠ ".." →
      (dir.join c.storage.namespaceSegment).IsEntryOf dir c.storage.namespaceSegment ∧
      (dir.join c.storage.namespaceSegment).IsInside dir) ∧
    (Path.isAbsolute c.storage.namespaceSegment = false →
      (∀ entry, (dir.join c.storage.namespaceSegment).IsEntryOf dir entry ↔
        Path.counted (Path.names c.storage.namespaceSegment) = [entry] ∧ entry ≠ "..") ∧
      ((dir.join c.storage.namespaceSegment).IsInside dir ↔
        ∃ k, Path.depth? 0 (Path.counted (Path.names c.storage.namespaceSegment))
          = some (k + 1))) ∧
    (Path.isAbsolute c.storage.namespaceSegment = true →
      dir.join c.storage.namespaceSegment = c.storage.namespaceSegment) := by
  obtain ⟨-, husable⟩ := parse_eq_ok_iff.mp hparse
  have hdir := Environment.configDirectory_ne_empty huser
  refine ⟨locator_of_user hnone huser, ?_, ?_, Path.join_of_isAbsolute dir⟩
  · intro hslash hhere hup
    have hentry := (Path.isEntryOf_join_iff dir hslash husable.namespace_ne_empty _).mpr
      ⟨rfl, hhere, hup⟩
    exact ⟨hentry, hentry.isInside⟩
  · intro hrelative
    exact ⟨Path.isEntryOf_join_relative_iff hdir hrelative, Path.isInside_join_iff hdir hrelative⟩

/-- Three dots are a name like any other, one segment below the directory that is given outright. -/
theorem locator_isInside_threeDots :
    ∃ c, parse "storage: \x7bnamespace: ...\x7d" = .ok c ∧ c.storage.directory = none ∧
      (⟨some "/home/u", some "/xdg/"⟩ : Environment).configDirectory = some "/xdg/" ∧
      (c.locator ⟨some "/home/u", some "/xdg/"⟩).1.directory = some "/xdg/..." ∧
      Path.IsEntryOf "/xdg/..." "/xdg/" "..." ∧ Path.IsInside "/xdg/..." "/xdg/" := by
  have hparse : parse "storage: \x7bnamespace: ...\x7d" = .ok { default with
      storage := { StorageSettings.default with namespaceSegment := "..." } } := by
    decide +kernel
  have huser : (⟨some "/home/u", some "/xdg/"⟩ : Environment).configDirectory = some "/xdg/" := by
    decide
  have hpath : Path.join "/xdg/" "..." = "/xdg/..." := by decide
  obtain ⟨hlocator, hsegment, -, -⟩ := locator_isInside_iff hparse rfl huser
  obtain ⟨hentry, hinside⟩ := hsegment (by decide) (by decide) (by decide)
  rw [hpath] at hlocator hentry hinside
  exact ⟨_, hparse, rfl, huser, congrArg (·.1.directory) hlocator, hentry, hinside⟩

/-- **A namespace can lead out of the user's configuration directory**: one that begins with a slash
    is accepted, and is the storage directory as it stands. -/
theorem parse_accepts_elsewhere :
    ∃ c, parse "storage: \x7bnamespace: /etc\x7d" = .ok c ∧ c.storage.directory = none ∧
      (⟨some "/home/u", none⟩ : Environment).configDirectory = some "/home/u/.config" ∧
      (c.locator ⟨some "/home/u", none⟩).1.directory = some "/etc" ∧
      ¬Path.IsInside "/etc" "/home/u/.config" ∧
      ∀ entry, ¬Path.IsEntryOf "/etc" "/home/u/.config" entry := by
  have hparse : parse "storage: \x7bnamespace: /etc\x7d" = .ok { default with
      storage := { StorageSettings.default with namespaceSegment := "/etc" } } := by
    decide +kernel
  have hout : ¬Path.IsInside "/etc" "/home/u/.config" := by
    intro h
    obtain ⟨ns, -, hns, -⟩ := h.steps
    rw [show Path.steps "/etc" = ["etc"] by decide,
      show Path.steps "/home/u/.config" = ["home", "u", ".config"] by decide] at hns
    exact absurd (List.cons.inj hns).1 (by decide)
  exact ⟨_, hparse, rfl, by decide, by decide, hout, fun entry h => hout h.isInside⟩

end Config

end RootAuthority
