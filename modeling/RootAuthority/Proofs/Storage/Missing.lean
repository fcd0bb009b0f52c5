import RootAuthority.Proofs.Storage.Walk

/-!
# When a file is missing

Reading reports that there is no such entry exactly if the walk along the path comes to a name that
nothing has (`FileSystem.read_eq_noSuchEntry_iff`): the last name of the path, one on the way, or
one in the target of a link (`FileSystem.Misses`). An empty path counts as missing, too. Everything else
that can be wrong with a path has an error of its own.
-/

namespace RootAuthority.FileSystem

variable {fs : FileSystem} {p : Path}

/-- **A walk comes to a name that nothing has**, with at most so many links followed. -/
inductive Misses (fs : FileSystem) : Nat → Location → List String → Prop
  | gone {k : Nat} {d : Location} (he : fs.find? d = none) : Misses fs k d []
  | skip {k : Nat} {d : Location} {name : String} {rest : List String}
      (h : name = "" ∨ name = ".") (next : Misses fs k d rest) : Misses fs k d (name :: rest)
  | up {k : Nat} {d : Location} {rest : List String} (next : Misses fs k d.dropLast rest) :
      Misses fs k d (".." :: rest)
  /-- Whether or not the path goes on from there. -/
  | name {k : Nat} {d : Location} {name : String} {rest : List String} (ho : IsOrdinary name)
      (he : fs.find? (d ++ [name]) = none) : Misses fs k d (name :: rest)
  | directory {k : Nat} {d : Location} {name : String} {rest : List String} {m : Nat}
      (ho : IsOrdinary name) (he : fs.find? (d ++ [name]) = some (.directory m))
      (next : Misses fs k (d ++ [name]) rest) : Misses fs k d (name :: rest)
  | link {k : Nat} {d : Location} {name : String} {rest : List String} {target : Path}
      (ho : IsOrdinary name) (he : fs.find? (d ++ [name]) = some (.link target))
      (next : Misses fs k (linkStart target d) (target.names ++ rest)) :
      Misses fs (k + 1) d (name :: rest)

/-- A walk that leads to nothing: it breaks off, or its last name is vacant. -/
def LeadsNowhere (result : Except FileError Target) : Prop :=
  result = .error .noSuchEntry ∨ ∃ loc slash, result = .ok ⟨loc, none, slash⟩

theorem Misses.leadsNowhere {k : Nat} {d : Location} {ns : List String} (h : fs.Misses k d ns) :
    LeadsNowhere (fs.walk true k d ns) := by
  induction h with
  | @gone k d he =>
    rw [walk_nil, he]
    exact .inr ⟨_, _, rfl⟩
  | skip h _ ih =>
    rw [walk_skip h]
    exact ih
  | up _ ih =>
    rw [walk_up]
    exact ih
  | name ho he =>
    rw [walk_vacant ho he]
    split
    · exact .inr ⟨_, _, rfl⟩
    · exact .inl rfl
  | directory ho he _ ih =>
    rw [walk_directory ho he]
    exact ih
  | link ho he _ ih =>
    rw [walk_link ho he, if_neg fun h => nomatch h.2]
    exact ih

theorem misses_of_leadsNowhere : ∀ (k : Nat) (d : Location) (ns : List String),
    LeadsNowhere (fs.walk true k d ns) → fs.Misses k d ns := by
  refine walk_induction (fun k d h => ?_) fun k d name rest ih ihLink h => ?_
  · rw [walk_nil] at h
    rcases h with h | ⟨loc, slash, h⟩
    · cases h
    · exact .gone (congrArg Target.entry? (Except.ok.inj h))
  · rcases name_cases name with hskip | rfl | ⟨hskip, hup, hlong⟩ | ho
    · rw [walk_skip hskip] at h
      exact .skip hskip (ih d h)
    · rw [walk_up] at h
      exact .up (ih _ h)
    · rw [walk_long hskip hup hlong] at h
      rcases h with h | ⟨loc, slash, h⟩
      · cases h
      · cases h
    · rcases Option.eq_none_or_eq_some (fs.find? (d ++ [name])) with he | ⟨e, he⟩
      · exact .name ho he
      · cases e with
        | file m c =>
          -- a file is found, or stands in the way
          rw [walk_file ho he] at h
          split at h <;> rcases h with h | ⟨loc, slash, h⟩ <;> cases h
        | directory m =>
          rw [walk_directory ho he] at h
          exact .directory ho he (ih _ h)
        | link target =>
          rw [walk_link ho he, if_neg fun h => nomatch h.2] at h
          cases k with
          | zero => rcases h with h | ⟨loc, slash, h⟩ <;> cases h
          | succ k => exact .link ho he (ihLink k rfl _ _ h)

/-- **The file is missing**: nothing is asked for, or the walk along the path comes to a name that
    nothing has. -/
def Missing (fs : FileSystem) (p : Path) : Prop :=
  p = "" ∨ pathFault? p = none ∧ fs.Misses linkLimit (fs.startOf p) p.names

/-- The text of a path is at fault for a missing entry if it is empty. -/
theorem pathFault?_eq_noSuchEntry_iff : pathFault? p = some .noSuchEntry ↔ p = "" := by
  constructor
  · intro h
    unfold pathFault? at h
    split at h
    · cases h
    · split at h
      · next hempty => exact String.isEmpty_iff.mp hempty
      · split at h
        · cases h
        · cases h
  · rintro rfl
    rfl

/-- Reading finds no entry if the look-up leads to nothing. -/
theorem read_eq_noSuchEntry_iff_locate :
    fs.read p = .error .noSuchEntry ↔ LeadsNowhere (fs.locate true p) := by
  unfold read
  constructor
  · intro h
    split at h
    · next hl =>
      cases h
      exact .inl hl
    · split at h
      · cases h
      · cases h
    · cases h
    · cases h
    · next hl => exact .inr ⟨_, _, hl⟩
  · rintro (h | ⟨loc, slash, h⟩)
    · rw [h]
    · rw [h]

/-- **Reading reports that there is no such entry exactly if the file is missing.** -/
theorem read_eq_noSuchEntry_iff : fs.read p = .error .noSuchEntry ↔ fs.Missing p := by
  rw [read_eq_noSuchEntry_iff_locate, locate, Missing]
  cases hfault : pathFault? p with
  | some e =>
    have hempty : e = .noSuchEntry ↔ p = "" := by
      rw [← pathFault?_eq_noSuchEntry_iff, hfault, Option.some.injEq]
    constructor
    · rintro (h | ⟨loc, slash, h⟩)
      · exact .inl (hempty.mp (Except.error.inj h))
      · cases h
    · rintro (h | ⟨h, -⟩)
      · exact .inl (congrArg Except.error (hempty.mpr h))
      · cases h
  | none =>
    have hne : p ≠ "" := fun h => by
      rw [pathFault?_eq_noSuchEntry_iff.mpr h] at hfault
      cases hfault
    constructor
    · intro h
      exact .inr ⟨rfl, misses_of_leadsNowhere _ _ _ h⟩
    · rintro (h | ⟨-, h⟩)
      · exact (hne h).elim
      · exact h.leadsNowhere

end RootAuthority.FileSystem
