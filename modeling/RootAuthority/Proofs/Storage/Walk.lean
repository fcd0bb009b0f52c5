import RootAuthority.Storage.FileSystem

/-!
# Walks and what does not disturb them

What a walk does with its next name is said once, in section 1; the proofs below go by these cases
(`FileSystem.walk_induction`).

* `FileSystem.Arrives.put`: a walk that arrives somewhere arrives at the same place after a file or
  directory was put where nothing was, or a file where a file was.
* `FileSystem.walk_put_error`: a walk that fails still fails after a file was put there.
-/

namespace RootAuthority.FileSystem

variable {fs : FileSystem} {follow : Bool} {k : Nat} {d : Location} {name : String}
  {rest : List String}

/-! ## 1. One name -/

/-- The name is looked up: it is neither skipped nor the one that leads up, and not too long. -/
structure IsOrdinary (name : String) : Prop where
  counts : ¬(name = "" ∨ name = ".")
  notUp : name ≠ ".."
  short : ¬nameLimit < name.utf8ByteSize

theorem name_cases (name : String) : (name = "" ∨ name = ".") ∨ name = ".." ∨
    (¬(name = "" ∨ name = ".") ∧ name ≠ ".." ∧ nameLimit < name.utf8ByteSize) ∨
    IsOrdinary name := by
  by_cases hskip : name = "" ∨ name = "."
  · exact .inl hskip
  · by_cases hup : name = ".."
    · exact .inr (.inl hup)
    · by_cases hlong : nameLimit < name.utf8ByteSize
      · exact .inr (.inr (.inl ⟨hskip, hup, hlong⟩))
      · exact .inr (.inr (.inr ⟨hskip, hup, hlong⟩))

/-- Goes on with the names in place of a link, as long as links may be followed. -/
def followLink (fs : FileSystem) (follow : Bool) : Nat → Location → List String →
    Except FileError Target
  | 0 => fun _ _ => .error .tooManyLinks
  | links + 1 => walk fs follow links

theorem walk_eq (fs : FileSystem) (follow : Bool) (k : Nat) :
    fs.walk follow k = walkNames fs follow (fs.followLink follow k) := by
  cases k <;> rfl

theorem walk_nil : fs.walk follow k d [] = .ok ⟨d, fs.find? d, false⟩ := by
  rw [walk_eq, walkNames]

theorem walk_skip (h : name = "" ∨ name = ".") :
    fs.walk follow k d (name :: rest) = fs.walk follow k d rest := by
  rw [walk_eq, walkNames, if_pos h]

theorem walk_up : fs.walk follow k d (".." :: rest) = fs.walk follow k d.dropLast rest := by
  rw [walk_eq, walkNames, if_neg (by decide), if_pos rfl]

theorem walk_long (h : ¬(name = "" ∨ name = ".")) (hup : name ≠ "..")
    (hlong : nameLimit < name.utf8ByteSize) :
    fs.walk follow k d (name :: rest) = .error .nameTooLong := by
  rw [walk_eq, walkNames, if_neg h, if_neg hup, if_pos hlong]

theorem walk_vacant (h : IsOrdinary name) (he : fs.find? (d ++ [name]) = none) :
    fs.walk follow k d (name :: rest) = if rest.all (· = "") then
      .ok ⟨d ++ [name], none, !rest.isEmpty⟩ else .error .noSuchEntry := by
  rw [walk_eq, walkNames, if_neg h.counts, if_neg h.notUp, if_neg h.short]
  simp only [he]

theorem walk_directory {m : Nat} (h : IsOrdinary name)
    (he : fs.find? (d ++ [name]) = some (.directory m)) :
    fs.walk follow k d (name :: rest) = fs.walk follow k (d ++ [name]) rest := by
  rw [walk_eq, walkNames, if_neg h.counts, if_neg h.notUp, if_neg h.short]
  simp only [he]

theorem walk_file {m : Nat} {c : Octets} (h : IsOrdinary name)
    (he : fs.find? (d ++ [name]) = some (.file m c)) :
    fs.walk follow k d (name :: rest) = if rest.all (· = "") then
      .ok ⟨d ++ [name], some (.file m c), !rest.isEmpty⟩ else .error .notADirectory := by
  rw [walk_eq, walkNames, if_neg h.counts, if_neg h.notUp, if_neg h.short]
  simp only [he]

theorem walk_link {target : Path} (h : IsOrdinary name)
    (he : fs.find? (d ++ [name]) = some (.link target)) :
    fs.walk follow k d (name :: rest) = if rest.isEmpty ∧ follow = false then
      .ok ⟨d ++ [name], some (.link target), false⟩
      else fs.followLink follow k (if target.isAbsolute then [] else d) (target.names ++ rest) := by
  rw [walk_eq, walkNames, if_neg h.counts, if_neg h.notUp, if_neg h.short]
  simp only [he]

/-- **What holds of a walk follows from what holds of shorter rows of names and, after a link, of
    any names with one link less.** -/
theorem walk_induction {motive : Nat → Location → List String → Prop}
    (nil : ∀ k d, motive k d [])
    (cons : ∀ k d name rest, (∀ d', motive k d' rest) →
      (∀ links, k = links + 1 → ∀ d' ns, motive links d' ns) → motive k d (name :: rest)) :
    ∀ k d ns, motive k d ns := by
  intro k
  induction k with
  | zero =>
    intro d ns
    induction ns generalizing d with
    | nil => exact nil 0 d
    | cons name rest ih => exact cons 0 d name rest ih fun _ h => nomatch h
  | succ k ihk =>
    intro d ns
    induction ns generalizing d with
    | nil => exact nil (k + 1) d
    | cons name rest ih =>
      exact cons (k + 1) d name rest ih fun _ h => Nat.succ.inj h ▸ ihk

/-- After only empty names a walk is where it was. -/
theorem walk_all_empty {ns : List String} (h : ns.all (· = "") = true) :
    fs.walk follow k d ns = .ok ⟨d, fs.find? d, false⟩ := by
  induction ns with
  | nil => exact walk_nil
  | cons name rest ih =>
    simp only [List.all_cons, Bool.and_eq_true, decide_eq_true_eq] at h
    rw [walk_skip (.inl h.1), ih h.2]

/-! ## 2. Where a walk arrives -/

/-- The place at which the target of a link is looked up. -/
def linkStart (target : Path) (d : Location) : Location := if target.isAbsolute then [] else d

/-- **A walk arrives**, with at most so many links followed. -/
inductive Arrives (fs : FileSystem) (follow : Bool) :
    Nat → Location → List String → Target → Prop
  | here {k : Nat} {d : Location} : Arrives fs follow k d [] ⟨d, fs.find? d, false⟩
  | skip {k : Nat} {d : Location} {name : String} {rest : List String} {t : Target}
      (h : name = "" ∨ name = ".") (next : Arrives fs follow k d rest t) :
      Arrives fs follow k d (name :: rest) t
  | up {k : Nat} {d : Location} {rest : List String} {t : Target}
      (next : Arrives fs follow k d.dropLast rest t) : Arrives fs follow k d (".." :: rest) t
  | vacant {k : Nat} {d : Location} {name : String} {rest : List String} (ho : IsOrdinary name)
      (he : fs.find? (d ++ [name]) = none) (hr : rest.all (· = "") = true) :
      Arrives fs follow k d (name :: rest) ⟨d ++ [name], none, !rest.isEmpty⟩
  | file {k : Nat} {d : Location} {name : String} {rest : List String} {m : Nat} {c : Octets}
      (ho : IsOrdinary name) (he : fs.find? (d ++ [name]) = some (.file m c))
      (hr : rest.all (· = "") = true) :
      Arrives fs follow k d (name :: rest) ⟨d ++ [name], some (.file m c), !rest.isEmpty⟩
  | directory {k : Nat} {d : Location} {name : String} {rest : List String} {m : Nat} {t : Target}
      (ho : IsOrdinary name) (he : fs.find? (d ++ [name]) = some (.directory m))
      (next : Arrives fs follow k (d ++ [name]) rest t) : Arrives fs follow k d (name :: rest) t
  /-- A last name that is a link is not followed. -/
  | link {k : Nat} {d : Location} {name : String} {target : Path} (ho : IsOrdinary name)
      (he : fs.find? (d ++ [name]) = some (.link target)) (hf : follow = false) :
      Arrives fs follow k d [name] ⟨d ++ [name], some (.link target), false⟩
  | followed {k : Nat} {d : Location} {name : String} {rest : List String} {target : Path}
      {t : Target} (ho : IsOrdinary name) (he : fs.find? (d ++ [name]) = some (.link target))
      (hr : ¬(rest.isEmpty ∧ follow = false))
      (next : Arrives fs follow k (linkStart target d) (target.names ++ rest) t) :
      Arrives fs follow (k + 1) d (name :: rest) t

theorem Arrives.walk {ns : List String} {t : Target} (h : Arrives fs follow k d ns t) :
    fs.walk follow k d ns = .ok t := by
  induction h with
  | here => exact walk_nil
  | skip h _ ih => rw [walk_skip h, ih]
  | up _ ih => rw [walk_up, ih]
  | vacant ho he hr => rw [walk_vacant ho he, if_pos hr]
  | file ho he hr => rw [walk_file ho he, if_pos hr]
  | directory ho he _ ih => rw [walk_directory ho he, ih]
  | link ho he hf => rw [walk_link ho he, if_pos ⟨rfl, hf⟩]
  | followed ho he hr _ ih =>
    rw [walk_link ho he, if_neg hr]
    exact ih

theorem arrives_of_walk : ∀ (k : Nat) (d : Location) (ns : List String) {t : Target},
    fs.walk follow k d ns = .ok t → Arrives fs follow k d ns t := by
  refine walk_induction (fun k d t h => ?_) fun k d name rest ih ihLink t h => ?_
  · rw [walk_nil] at h
    cases h
    exact .here
  · rcases name_cases name with hskip | rfl | ⟨hskip, hup, hlong⟩ | ho
    · rw [walk_skip hskip] at h
      exact .skip hskip (ih d h)
    · rw [walk_up] at h
      exact .up (ih _ h)
    · rw [walk_long hskip hup hlong] at h
      cases h
    · rcases Option.eq_none_or_eq_some (fs.find? (d ++ [name])) with he | ⟨e, he⟩
      · rw [walk_vacant ho he] at h
        split at h
        · next hr =>
          cases h
          exact .vacant ho he hr
        · cases h
      · cases e with
        | file m c =>
          rw [walk_file ho he] at h
          split at h
          · next hr =>
            cases h
            exact .file ho he hr
          · cases h
        | directory m =>
          rw [walk_directory ho he] at h
          exact .directory ho he (ih _ h)
        | link target =>
          rw [walk_link ho he] at h
          split at h
          · next hr =>
            cases h
            obtain rfl := List.isEmpty_iff.mp hr.1
            exact .link ho he hr.2
          · next hr =>
            cases k with
            | zero => cases h
            | succ k => exact .followed ho he hr (ihLink k rfl _ _ h)

/-- **The derivations of arrival are the successful walks.** -/
theorem arrives_iff {ns : List String} {t : Target} :
    Arrives fs follow k d ns t ↔ fs.walk follow k d ns = .ok t :=
  ⟨Arrives.walk, arrives_of_walk k d ns⟩

/-- **A walk reports the entry at the place where it arrives.** -/
theorem Arrives.entry {ns : List String} {t : Target} (h : Arrives fs follow k d ns t) :
    t.entry? = fs.find? t.location := by
  induction h with
  | here => rfl
  | skip _ _ ih => exact ih
  | up _ ih => exact ih
  | vacant _ he _ => exact he.symm
  | file _ he _ => exact he.symm
  | directory _ _ _ ih => exact ih
  | link _ he _ => exact he.symm
  | followed _ _ _ _ ih => exact ih

theorem Arrives.reported {ns : List String} {t : Target} (h : Arrives fs follow k d ns t) :
    Arrives fs follow k d ns ⟨t.location, fs.find? t.location, t.slash⟩ := by
  rw [← h.entry]
  exact h

/-! ## 3. Walks after a put -/

/-- What may be put where: anything but a link where nothing is, and a file in place of a file. -/
def MayPut (fs : FileSystem) (loc : Location) : Entry → Prop
  | .file _ _ => fs.find? loc = none ∨ ∃ m c, fs.find? loc = some (.file m c)
  | .directory _ => fs.find? loc = none
  | .link _ => False

theorem MayPut.ne_nil {loc : Location} {e : Entry} (h : fs.MayPut loc e) : loc ≠ [] := by
  rintro rfl
  cases e with
  | file m c =>
    rcases h with h | ⟨m, c, h⟩
    · cases h
    · cases h
  | directory m => cases h
  | link target => exact h

theorem MayPut.find?_put {loc : Location} {e : Entry} (h : fs.MayPut loc e) (loc' : Location) :
    (fs.put loc e).find? loc' = if loc' = loc then some e else fs.find? loc' :=
  FileSystem.find?_put fs h.ne_nil loc' e

/-- **Directories and links stay as they are.** -/
theorem MayPut.keeps {loc loc' : Location} {e x : Entry} (h : fs.MayPut loc e)
    (he : fs.find? loc' = some x) (hx : ∀ m c, x ≠ .file m c) :
    (fs.put loc e).find? loc' = some x := by
  rw [h.find?_put]
  split
  · next hl =>
    subst hl
    cases e with
    | file _ _ =>
      rcases h with hn | ⟨m, c, hn⟩
      · rw [hn] at he
        cases he
      · rw [hn] at he
        cases he
        exact (hx m c rfl).elim
    | directory _ =>
      rw [show fs.find? loc' = none from h] at he
      cases he
    | link _ => exact h.elim
  · exact he

theorem MayPut.directory {loc loc' : Location} {e : Entry} {m : Nat} (h : fs.MayPut loc e)
    (he : fs.find? loc' = some (.directory m)) :
    (fs.put loc e).find? loc' = some (.directory m) :=
  h.keeps he fun _ _ h => nomatch h

theorem MayPut.link {loc loc' : Location} {e : Entry} {target : Path} (h : fs.MayPut loc e)
    (he : fs.find? loc' = some (.link target)) :
    (fs.put loc e).find? loc' = some (.link target) :=
  h.keeps he fun _ _ h => nomatch h

/-- **A walk that arrives still arrives at the same place after a put.** Only after the put of a
    directory the path may end in slashes that no longer matter. -/
theorem Arrives.put {loc : Location} {e : Entry} (hput : fs.MayPut loc e) {ns : List String}
    {t : Target} (h : Arrives fs follow k d ns t) :
    ∃ slash, Arrives (fs.put loc e) follow k d ns
        ⟨t.location, (fs.put loc e).find? t.location, slash⟩ ∧
      (slash = t.slash ∨ slash = false ∧ ∃ m, e = .directory m) := by
  induction h with
  | here => exact ⟨false, .here, .inl rfl⟩
  | skip h _ ih =>
    obtain ⟨slash, hnext, hs⟩ := ih
    exact ⟨slash, .skip h hnext, hs⟩
  | up _ ih =>
    obtain ⟨slash, hnext, hs⟩ := ih
    exact ⟨slash, .up hnext, hs⟩
  | @vacant k d name rest ho he hr =>
    by_cases hl : d ++ [name] = loc
    · have hnew : (fs.put loc e).find? (d ++ [name]) = some e := by rw [hput.find?_put, if_pos hl]
      cases e with
      | file m c =>
        exact ⟨!rest.isEmpty, (Arrives.file ho hnew hr).reported, .inl rfl⟩
      | directory m =>
        refine ⟨false, .directory ho hnew ?_, .inr ⟨rfl, m, rfl⟩⟩
        exact arrives_iff.mpr (walk_all_empty hr)
      | link _ => exact hput.elim
    · have hold : (fs.put loc e).find? (d ++ [name]) = none := by
        rw [hput.find?_put, if_neg hl, he]
      exact ⟨!rest.isEmpty, (Arrives.vacant ho hold hr).reported, .inl rfl⟩
  | @file k d name rest m c ho he hr =>
    have hfile : ∃ m' c', (fs.put loc e).find? (d ++ [name]) = some (.file m' c') := by
      rw [hput.find?_put]
      split
      · next hl =>
        cases e with
        | file m' c' => exact ⟨m', c', rfl⟩
        | directory _ =>
          rw [hl, show fs.find? loc = none from hput] at he
          cases he
        | link _ => exact hput.elim
      · exact ⟨m, c, he⟩
    obtain ⟨m', c', hnew⟩ := hfile
    exact ⟨!rest.isEmpty, (Arrives.file ho hnew hr).reported, .inl rfl⟩
  | directory ho he _ ih =>
    obtain ⟨slash, hnext, hs⟩ := ih
    exact ⟨slash, .directory ho (hput.directory he) hnext, hs⟩
  | link ho he hf =>
    exact ⟨false, (Arrives.link ho (hput.link he) hf).reported, .inl rfl⟩
  | followed ho he hr _ ih =>
    obtain ⟨slash, hnext, hs⟩ := ih
    exact ⟨slash, .followed ho (hput.link he) hr hnext, hs⟩

/-- After the put of a file the path ends in slashes exactly if it did before. -/
theorem Arrives.put_file {loc : Location} {m : Nat} {c : Octets}
    (hput : fs.MayPut loc (.file m c)) {ns : List String} {t : Target}
    (h : Arrives fs follow k d ns t) : Arrives (fs.put loc (.file m c)) follow k d ns
      ⟨t.location, (fs.put loc (.file m c)).find? t.location, t.slash⟩ := by
  obtain ⟨slash, hnext, rfl | ⟨-, _, hdirectory⟩⟩ := h.put hput
  · exact hnext
  · cases hdirectory

/-- A path that does not end in slashes still does not after a put. -/
theorem Arrives.put_plain {loc : Location} {e : Entry} (hput : fs.MayPut loc e)
    {ns : List String} {t : Target} (h : Arrives fs follow k d ns t) (ht : t.slash = false) :
    Arrives (fs.put loc e) follow k d ns
      ⟨t.location, (fs.put loc e).find? t.location, false⟩ := by
  obtain ⟨slash, hnext, rfl | ⟨rfl, -⟩⟩ := h.put hput
  · rw [ht] at hnext
    exact hnext
  · exact hnext

/-- **A walk that fails still fails after the put of a file**, and if then because something is
    missing, this was so before. -/
theorem walk_put_error {loc : Location} {m : Nat} {c : Octets} (hput : fs.MayPut loc (.file m c)) :
    ∀ (k : Nat) (d : Location) (ns : List String) {e : FileError},
      fs.walk follow k d ns = .error e →
      ∃ e', (fs.put loc (.file m c)).walk follow k d ns = .error e' ∧
        (e' = .noSuchEntry → e = .noSuchEntry) := by
  refine walk_induction (fun k d e h => ?_) fun k d name rest ih ihLink e h => ?_
  · rw [walk_nil] at h
    cases h
  · rcases name_cases name with hskip | rfl | ⟨hskip, hup, hlong⟩ | ho
    · rw [walk_skip hskip] at h ⊢
      exact ih d h
    · rw [walk_up] at h ⊢
      exact ih _ h
    · rw [walk_long hskip hup hlong] at h ⊢
      cases h
      exact ⟨_, rfl, id⟩
    · by_cases hl : d ++ [name] = loc
      · have hnew : (fs.put loc (.file m c)).find? (d ++ [name]) = some (.file m c) := by
          rw [hput.find?_put, if_pos hl]
        rw [walk_file ho hnew]
        have hrest : ¬rest.all (· = "") = true := fun hr => by
          rcases hput with he | ⟨_, _, he⟩
          · rw [walk_vacant ho (hl ▸ he), if_pos hr] at h
            cases h
          · rw [walk_file ho (hl ▸ he), if_pos hr] at h
            cases h
        exact ⟨_, if_neg hrest, fun h => nomatch h⟩
      · have hsame : (fs.put loc (.file m c)).find? (d ++ [name]) = fs.find? (d ++ [name]) := by
          rw [hput.find?_put, if_neg hl]
        rcases Option.eq_none_or_eq_some (fs.find? (d ++ [name])) with he | ⟨entry, he⟩
        · rw [walk_vacant ho he] at h
          rw [walk_vacant ho (hsame.trans he)]
          exact ⟨e, h, id⟩
        · cases entry with
          | file m' c' =>
            rw [walk_file ho he] at h
            rw [walk_file ho (hsame.trans he)]
            exact ⟨e, h, id⟩
          | directory m' =>
            rw [walk_directory ho he] at h
            rw [walk_directory ho (hsame.trans he)]
            exact ih _ h
          | link target =>
            rw [walk_link ho he] at h
            rw [walk_link ho (hsame.trans he)]
            split at h
            · cases h
            · next hr =>
              rw [if_neg hr]
              cases k with
              | zero => exact ⟨e, h, id⟩
              | succ k => exact ihLink k rfl _ _ h

end RootAuthority.FileSystem
