import RootAuthority.Proofs.Storage.Path
import RootAuthority.Proofs.Storage.Walk

/-!
# Creating a chain of directories

In a well-formed file system (`FileSystem.WellFormed`) the working directory is a directory and so
is what stands above a directory. There, a path that leads to a directory, or at which one can be
created, has a parent that leads to a directory (`FileSystem.isDirectory_parent`,
`FileSystem.isDirectory_of_makeDirectory`).

So one run over the ancestors of a path leaves nothing to create
(`FileSystem.prepared_makeDirectories`): a second run changes nothing
(`FileSystem.makeDirectories_of_settled`), not even after a file was written in between
(`FileSystem.Settled.put`).
-/

namespace RootAuthority.FileSystem

variable {fs : FileSystem} {follow : Bool} {k : Nat} {d : Location}

/-! ## 1. Well-formed file systems -/

/-- A directory stands at the location. -/
def HasDirectory (fs : FileSystem) (loc : Location) : Prop :=
  ∃ m, fs.find? loc = some (.directory m)

theorem hasDirectory_root (fs : FileSystem) : fs.HasDirectory [] := ⟨_, if_pos rfl⟩

/-- **Relative paths start at a directory, and what stands above a directory is one.** -/
structure WellFormed (fs : FileSystem) : Prop where
  start : fs.HasDirectory fs.workingDirectory
  parents : ∀ loc, fs.HasDirectory loc → fs.HasDirectory loc.dropLast

theorem WellFormed.startOf (h : fs.WellFormed) (p : Path) : fs.HasDirectory (fs.startOf p) := by
  unfold FileSystem.startOf
  split
  · exact hasDirectory_root fs
  · exact h.start

theorem HasDirectory.linkStart (h : fs.HasDirectory d) (target : Path) :
    fs.HasDirectory (linkStart target d) := by
  unfold FileSystem.linkStart
  split
  · exact hasDirectory_root fs
  · exact h

theorem HasDirectory.put {loc : Location} {e : Entry} (hput : fs.MayPut loc e)
    (h : fs.HasDirectory d) : (fs.put loc e).HasDirectory d :=
  h.imp fun _ he => hput.directory he

/-- **A put keeps a file system well-formed**, if a directory is put only into a directory. -/
theorem WellFormed.put (h : fs.WellFormed) {loc : Location} {e : Entry} (hput : fs.MayPut loc e)
    (hparent : (∃ m, e = .directory m) → fs.HasDirectory loc.dropLast) :
    (fs.put loc e).WellFormed where
  start := h.start.put hput
  parents loc' := by
    rintro ⟨m, hm⟩
    rw [hput.find?_put] at hm
    split at hm
    · next hl =>
      subst hl
      exact (hparent ⟨m, Option.some.inj hm⟩).put hput
    · exact (h.parents loc' ⟨m, hm⟩).put hput

/-- A vacant place at which a walk arrives is in a directory. -/
theorem Arrives.hasDirectory_dropLast (hw : fs.WellFormed) {ns : List String} {t : Target}
    (h : Arrives fs follow k d ns t) (hd : fs.HasDirectory d) (ht : t.entry? = none) :
    fs.HasDirectory t.location.dropLast := by
  induction h with
  | here =>
    obtain ⟨m, hm⟩ := hd
    rw [hm] at ht
    cases ht
  | skip _ _ ih => exact ih hd ht
  | up _ ih => exact ih (hw.parents _ hd) ht
  | vacant _ _ _ =>
    rw [List.dropLast_concat]
    exact hd
  | file _ _ _ => cases ht
  | directory _ he _ ih => exact ih ⟨_, he⟩ ht
  | link _ _ _ => cases ht
  | followed _ _ _ _ ih => exact ih (hd.linkStart _) ht

/-! ## 2. Walks that stay in directories -/

/-- **Names lead from one directory to another**; only names that count are listed. -/
inductive Enters (fs : FileSystem) : Nat → Location → List String → Location → Prop
  | here {k : Nat} {d : Location} : Enters fs k d [] d
  | up {k : Nat} {d d' : Location} {rest : List String} (next : Enters fs k d.dropLast rest d') :
      Enters fs k d (".." :: rest) d'
  | down {k : Nat} {d d' : Location} {name : String} {rest : List String} {m : Nat}
      (ho : IsOrdinary name) (he : fs.find? (d ++ [name]) = some (.directory m))
      (next : Enters fs k (d ++ [name]) rest d') : Enters fs k d (name :: rest) d'
  | link {k : Nat} {d d' : Location} {name : String} {rest : List String} {target : Path}
      (ho : IsOrdinary name) (he : fs.find? (d ++ [name]) = some (.link target))
      (next : Enters fs k (linkStart target d) (Path.counted target.names ++ rest) d') :
      Enters fs (k + 1) d (name :: rest) d'

theorem Enters.hasDirectory (hw : fs.WellFormed) {ns : List String} {d' : Location}
    (h : Enters fs k d ns d') (hd : fs.HasDirectory d) : fs.HasDirectory d' := by
  induction h with
  | here => exact hd
  | up _ ih => exact ih (hw.parents _ hd)
  | down _ he _ ih => exact ih ⟨_, he⟩
  | link _ _ _ ih => exact ih (hd.linkStart _)

/-- The first of the names lead to a directory, too. -/
theorem Enters.front {ns : List String} {d' : Location} (h : Enters fs k d ns d') :
    ∀ {front back : List String}, ns = front ++ back → ∃ e, Enters fs k d front e := by
  induction h with
  | here =>
    intro front back hns
    obtain ⟨rfl, -⟩ := List.append_eq_nil_iff.mp hns.symm
    exact ⟨_, .here⟩
  | up _ ih =>
    intro front back hns
    cases front with
    | nil => exact ⟨_, .here⟩
    | cons n front =>
      obtain ⟨rfl, hrest⟩ := List.cons.inj hns
      exact (ih hrest).imp fun _ => .up
  | down ho he _ ih =>
    intro front back hns
    cases front with
    | nil => exact ⟨_, .here⟩
    | cons n front =>
      obtain ⟨rfl, hrest⟩ := List.cons.inj hns
      exact (ih hrest).imp fun _ => .down ho he
  | @link k d d' name rest target ho he _ ih =>
    intro front back hns
    cases front with
    | nil => exact ⟨_, .here⟩
    | cons n front =>
      obtain ⟨rfl, hrest⟩ := List.cons.inj hns
      have hnext : Path.counted target.names ++ rest
          = Path.counted target.names ++ front ++ back := by
        rw [List.append_assoc, hrest]
        rfl
      exact (ih hnext).imp fun _ => .link ho he

theorem Arrives.skipAll {junk ns : List String} {t : Target} (hj : ∀ n ∈ junk, n = "" ∨ n = ".")
    (h : Arrives fs follow k d ns t) : Arrives fs follow k d (junk ++ ns) t := by
  induction junk with
  | nil => exact h
  | cons n junk ih =>
    exact .skip (hj n List.mem_cons_self) (ih fun m hm => hj m (List.mem_cons_of_mem n hm))

theorem skipped_of_not_counts {n : String} (h : ¬ (n ≠ "" ∧ n ≠ ".")) : n = "" ∨ n = "." :=
  Classical.or_iff_not_imp_left.mpr fun hne => Classical.byContradiction fun hdot => h ⟨hne, hdot⟩

/-- The names that do not count are skipped. -/
theorem exists_of_counted_eq_cons {ns rest : List String} {n : String}
    (h : Path.counted ns = n :: rest) :
    ∃ junk ns', ns = junk ++ n :: ns' ∧ (∀ m ∈ junk, m = "" ∨ m = ".") ∧
      Path.counted ns' = rest := by
  obtain ⟨junk, ns', hns, hj, -, hrest⟩ := List.filter_eq_cons_iff.mp h
  refine ⟨junk, ns', hns, fun m hm => ?_, hrest⟩
  have hm := hj m hm
  simp only [decide_eq_true_eq] at hm
  exact skipped_of_not_counts hm

/-- **A walk along names that lead to a directory arrives there.** -/
theorem Enters.arrives {l : List String} {d' : Location} (h : Enters fs k d l d') :
    ∀ {ns : List String}, Path.counted ns = l → Arrives fs true k d ns ⟨d', fs.find? d', false⟩ := by
  induction h with
  | here =>
    intro ns hns
    have hj : ∀ n ∈ ns, n = "" ∨ n = "." := fun n hn => by
      have hn := List.filter_eq_nil_iff.mp hns n hn
      simp only [decide_eq_true_eq] at hn
      exact skipped_of_not_counts hn
    rw [← List.append_nil ns]
    exact .skipAll hj .here
  | up _ ih =>
    intro ns hns
    obtain ⟨junk, ns', rfl, hj, hrest⟩ := exists_of_counted_eq_cons hns
    exact .skipAll hj (.up (ih hrest))
  | down ho he _ ih =>
    intro ns hns
    obtain ⟨junk, ns', rfl, hj, hrest⟩ := exists_of_counted_eq_cons hns
    exact .skipAll hj (.directory ho he (ih hrest))
  | link ho he _ ih =>
    intro ns hns
    obtain ⟨junk, ns', rfl, hj, hrest⟩ := exists_of_counted_eq_cons hns
    exact .skipAll hj (.followed ho he (by simp) (ih (by rw [Path.counted_append, hrest])))

theorem IsOrdinary.counted_cons {name : String} (h : IsOrdinary name) (rest : List String) :
    Path.counted (name :: rest) = name :: Path.counted rest :=
  Path.counted_cons_of_ne (fun e => h.counts (.inl e)) (fun e => h.counts (.inr e)) rest

theorem counted_skip {name : String} (h : name = "" ∨ name = ".") (rest : List String) :
    Path.counted (name :: rest) = Path.counted rest := by
  rcases h with rfl | rfl <;> rfl

/-- **A walk that arrives at a directory went through directories only.** -/
theorem Arrives.enters {ns : List String} {t : Target} (h : Arrives fs follow k d ns t) {m : Nat}
    (ht : t.entry? = some (.directory m)) : Enters fs k d (Path.counted ns) t.location := by
  induction h with
  | here => exact .here
  | skip h _ ih =>
    rw [counted_skip h]
    exact ih ht
  | up _ ih => exact .up (ih ht)
  | vacant _ _ _ => cases ht
  | file _ _ _ => cases ht
  | directory ho he _ ih =>
    rw [ho.counted_cons]
    exact .down ho he (ih ht)
  | link _ _ _ => cases ht
  | followed ho he _ _ ih =>
    rw [ho.counted_cons]
    have hnext := ih ht
    rw [Path.counted_append] at hnext
    exact .link ho he hnext

/-- **A walk that arrives at a vacant place went through directories up to the last name.** -/
theorem Arrives.enters_front {ns : List String} {t : Target} (h : Arrives fs follow k d ns t)
    (ht : t.entry? = none) : ∀ {front : List String} {last : String},
    Path.counted ns = front ++ [last] → ∃ d', Enters fs k d front d' := by
  induction h with
  | here =>
    intro front last hns
    simp [Path.counted] at hns
  | skip h _ ih =>
    intro front last hns
    rw [counted_skip h] at hns
    exact ih ht hns
  | up _ ih =>
    intro front last hns
    cases front with
    | nil => exact ⟨_, .here⟩
    | cons n front =>
      obtain ⟨rfl, hrest⟩ := List.cons.inj hns
      exact (ih ht hrest).imp fun _ => .up
  | @vacant k d name rest ho he hr =>
    intro front last hns
    have hempty : Path.counted rest = [] := by
      refine List.filter_eq_nil_iff.mpr fun n hn => ?_
      have := List.all_eq_true.mp hr n hn
      simp only [decide_eq_true_eq] at this ⊢
      exact fun hne => hne.1 this
    rw [ho.counted_cons, hempty] at hns
    cases front with
    | nil => exact ⟨_, .here⟩
    | cons n front =>
      have := congrArg List.length hns
      simp at this
  | file _ _ _ => cases ht
  | directory ho he _ ih =>
    intro front last hns
    rw [ho.counted_cons] at hns
    cases front with
    | nil => exact ⟨_, .here⟩
    | cons n front =>
      obtain ⟨rfl, hrest⟩ := List.cons.inj hns
      exact (ih ht hrest).imp fun _ => .down ho he
  | link _ _ _ => cases ht
  | @followed k d name rest target t ho he _ _ ih =>
    intro front last hns
    rw [ho.counted_cons] at hns
    cases front with
    | nil => exact ⟨_, .here⟩
    | cons n front =>
      obtain ⟨rfl, hrest⟩ := List.cons.inj hns
      have hnext : Path.counted (target.names ++ rest)
          = Path.counted target.names ++ front ++ [last] := by
        rw [Path.counted_append, List.append_assoc, hrest]
        rfl
      exact (ih ht hnext).imp fun _ => .link ho he

/-! ## 3. Parents -/

theorem startOf_parent {p parent : Path} (h : Path.IsParent p parent) :
    fs.startOf parent = fs.startOf p := by
  unfold startOf
  rw [h.absolute]

/-- A path whose counting names lead to a directory leads to that directory. -/
theorem isDirectory_of_enters (hw : fs.WellFormed) {p : Path} {d' : Location}
    (hp : pathFault? p = none)
    (h : Enters fs linkLimit (fs.startOf p) (Path.counted p.names) d') :
    fs.isDirectory p = true := by
  obtain ⟨m, hm⟩ := h.hasDirectory hw (hw.startOf p)
  have hwalk := (h.arrives rfl).walk
  unfold isDirectory locate
  rw [hp]
  simp only [hwalk, hm]

theorem isDirectory_iff {p : Path} : fs.isDirectory p = true ↔
    ∃ t m, fs.locate true p = .ok t ∧ t.entry? = some (.directory m) := by
  unfold isDirectory
  constructor
  · intro h
    split at h
    · next m _ hl => exact ⟨_, m, hl, rfl⟩
    · cases h
  · rintro ⟨⟨loc, entry, slash⟩, m, hl, rfl⟩
    rw [hl]

/-- **The parent of a directory is a directory.** -/
theorem isDirectory_parent (hw : fs.WellFormed) {p parent : Path} (hparent : Path.IsParent p parent)
    (h : fs.isDirectory p = true) : fs.isDirectory parent = true := by
  obtain ⟨t, m, hl, ht⟩ := isDirectory_iff.mp h
  unfold locate at hl
  split at hl
  · cases hl
  · next hp =>
    obtain ⟨last, hnames⟩ := hparent.names
    have henters := (arrives_iff.mpr hl).enters ht
    obtain ⟨e, hfront⟩ := henters.front hnames
    rw [← startOf_parent hparent] at hfront
    exact isDirectory_of_enters hw (pathFault?_parent hparent hp) hfront

theorem counted_dropWhile (ns : List String) :
    Path.counted (ns.dropWhile (· = "")) = Path.counted ns := by
  induction ns with
  | nil => rfl
  | cons n ns ih =>
    by_cases hn : n = ""
    · rw [List.dropWhile_cons_of_pos (by simpa using hn), ih, counted_skip (.inl hn)]
    · rw [List.dropWhile_cons_of_neg (by simpa using hn)]

theorem counted_reverse (ns : List String) :
    Path.counted ns.reverse = (Path.counted ns).reverse := List.filter_reverse

/-- What is created is a vacant place in a directory, at which the walk along the path arrived. -/
theorem makeDirectory_ok {mode : Nat} {p : Path} {fs' : FileSystem}
    (h : fs.makeDirectory mode p = .ok fs') : ∃ t ns, pathFault? p = none ∧
      Path.counted ns = Path.counted p.names ∧ t.entry? = none ∧
      Arrives fs false linkLimit (fs.startOf p) ns t ∧
      fs.locateName p = .ok t ∧ fs' = fs.put t.location (.directory (grantedMode mode)) := by
  unfold makeDirectory at h
  split at h
  · cases h
  · cases h
  · next loc slash hl =>
    have hname := hl
    unfold locateName at hl
    split at hl
    · cases hl
    · next hp =>
      refine ⟨_, _, hp, ?_, rfl, arrives_iff.mpr hl, hname, (Except.ok.inj h).symm⟩
      rw [counted_reverse, counted_dropWhile, counted_reverse, List.reverse_reverse]

/-- **Where a directory can be created, the parent is a directory.** -/
theorem isDirectory_of_makeDirectory (hw : fs.WellFormed) {mode : Nat} {p parent : Path}
    {fs' : FileSystem} (hparent : Path.IsParent p parent) (h : fs.makeDirectory mode p = .ok fs') :
    fs.isDirectory parent = true := by
  obtain ⟨t, ns, hp, hns, ht, harrives, -, -⟩ := makeDirectory_ok h
  obtain ⟨last, hnames⟩ := hparent.names
  obtain ⟨e, hfront⟩ := harrives.enters_front ht (hns.trans hnames)
  rw [← startOf_parent hparent] at hfront
  exact isDirectory_of_enters hw (pathFault?_parent hparent hp) hfront

/-! ## 4. Creating directories -/

theorem mayPut_directory {mode : Nat} {t : Target} {ns : List String}
    (h : Arrives fs follow k d ns t) (ht : t.entry? = none) :
    fs.MayPut t.location (.directory mode) :=
  h.entry.symm.trans ht

theorem WellFormed.makeDirectory (hw : fs.WellFormed) {mode : Nat} {p : Path} {fs' : FileSystem}
    (h : fs.makeDirectory mode p = .ok fs') : fs'.WellFormed := by
  obtain ⟨t, ns, -, -, ht, harrives, -, rfl⟩ := makeDirectory_ok h
  exact hw.put (mayPut_directory harrives ht) fun _ =>
    harrives.hasDirectory_dropLast hw (hw.startOf p) ht

/-- **A directory is not created a second time.** -/
theorem makeDirectory_again {mode : Nat} {p : Path} {fs' : FileSystem}
    (h : fs.makeDirectory mode p = .ok fs') : fs'.makeDirectory mode p = .error .alreadyExists := by
  obtain ⟨t, -, -, -, ht, -, hname, rfl⟩ := makeDirectory_ok h
  have hput : fs.MayPut t.location (.directory (grantedMode mode)) := by
    unfold locateName at hname
    split at hname
    · cases hname
    · exact mayPut_directory (arrives_iff.mpr hname) ht
  have hnew : ∃ slash, (fs.put t.location (.directory (grantedMode mode))).locateName p
      = .ok ⟨t.location, some (.directory (grantedMode mode)), slash⟩ := by
    unfold locateName at hname ⊢
    split at hname
    · cases hname
    · obtain ⟨slash, hnext, -⟩ := (arrives_iff.mpr hname).put hput
      rw [hput.find?_put, if_pos rfl] at hnext
      exact ⟨slash, hnext.walk⟩
  obtain ⟨slash, hnew⟩ := hnew
  unfold makeDirectory
  rw [hnew]

/-- **Nothing is left to create**: the first path cannot be created, and neither can those above it
    if something is missing there. -/
def Settled (mode : Nat) : List Path → FileSystem → Prop
  | [], _ => True
  | p :: above, fs => ∃ e, fs.makeDirectory mode p = .error e ∧
      (e = .noSuchEntry → Settled mode above fs)

/-- What a run over some paths does when the first of them cannot be created. -/
theorem makeDirectories_error {mode : Nat} {p : Path} {above : List Path} {e : FileError}
    (he : fs.makeDirectory mode p = .error e) (hne : e ≠ .noSuchEntry) :
    makeDirectories mode (p :: above) fs
      = if fs.isDirectory p then (.ok (), fs) else (.error e, fs) := by
  rw [makeDirectories, he]
  cases e with
  | noSuchEntry => exact (hne rfl).elim
  | _ => rfl

/-- **Where nothing is left to create nothing changes.** -/
theorem makeDirectories_of_settled {mode : Nat} : ∀ {paths : List Path} {fs : FileSystem},
    Settled mode paths fs → (makeDirectories mode paths fs).2 = fs
  | [], _, _ => rfl
  | p :: above, fs, ⟨e, he, habove⟩ => by
      by_cases hne : e = .noSuchEntry
      · subst hne
        have ih := makeDirectories_of_settled (habove rfl)
        rw [makeDirectories, he]
        dsimp only
        cases hr : makeDirectories mode above fs with
        | mk result fs₁ =>
          rw [hr] at ih
          obtain rfl : fs₁ = fs := ih
          cases result with
          | error e => rfl
          | ok _ =>
            simp only [he]
            split <;> rfl
      · rw [makeDirectories_error he hne]
        split <;> rfl

/-- What one run over paths and their parents brings about. -/
structure Prepared (mode : Nat) (paths : List Path) (result : Except FileError Unit)
    (fs : FileSystem) : Prop where
  wellFormed : fs.WellFormed
  settled : Settled mode paths fs
  /-- A run that fails leaves the first path without a directory. -/
  missing : ∀ e, result = .error e → ∀ p ∈ paths.head?, fs.isDirectory p = false

theorem Prepared.of_created {mode : Nat} {p : Path} {above : List Path} {fs' : FileSystem}
    (hw : fs.WellFormed) (h : fs.makeDirectory mode p = .ok fs') :
    Prepared mode (p :: above) (.ok ()) fs' where
  wellFormed := hw.makeDirectory h
  settled := ⟨_, makeDirectory_again h, fun h => nomatch h⟩
  missing _ h := nomatch h

theorem Prepared.of_refused {mode : Nat} {p : Path} {above : List Path} {e : FileError}
    (hw : fs.WellFormed) (h : fs.makeDirectory mode p = .error e)
    (hs : e = .noSuchEntry → Settled mode above fs) {run : Except FileError Unit × FileSystem}
    (hrun : run = if fs.isDirectory p then (.ok (), fs) else (.error e, fs)) :
    Prepared mode (p :: above) run.1 run.2 := by
  subst hrun
  split
  · exact ⟨hw, ⟨e, h, hs⟩, fun _ h => nomatch h⟩
  · next hp =>
    refine ⟨hw, ⟨e, h, hs⟩, fun _ _ q hq => ?_⟩
    obtain rfl := Option.some.inj hq
    exact Bool.eq_false_iff.mpr hp

/-- **Below what is no directory nothing is created.** -/
theorem Prepared.below {mode : Nat} {p parent : Path} {above : List Path} {e : FileError}
    (h : Prepared mode (parent :: above) (.error e) fs) (hparent : Path.IsParent p parent) :
    Prepared mode (p :: parent :: above) (.error e) fs := by
  have hno : fs.isDirectory parent = false := h.missing e rfl parent rfl
  have hp : fs.isDirectory p = false := Bool.eq_false_iff.mpr fun hd => by
    rw [isDirectory_parent h.wellFormed hparent hd] at hno
    cases hno
  refine ⟨h.wellFormed, ?_, fun _ _ q hq => Option.some.inj hq ▸ hp⟩
  cases hm : fs.makeDirectory mode p with
  | error e' => exact ⟨e', hm, fun _ => h.settled⟩
  | ok fs₂ =>
    rw [isDirectory_of_makeDirectory h.wellFormed hparent hm] at hno
    cases hno

/-- **One run over a path and those above it leaves nothing to create.** -/
theorem prepared_makeDirectories {mode : Nat} (hw : fs.WellFormed) : ∀ {paths : List Path},
    paths.IsChain Path.IsParent → Prepared mode paths (makeDirectories mode paths fs).1
      (makeDirectories mode paths fs).2
  | [], _ => ⟨hw, trivial, fun _ h => nomatch h⟩
  | p :: above, hchain => by
      have ih : Prepared mode above (makeDirectories mode above fs).1
          (makeDirectories mode above fs).2 := prepared_makeDirectories hw hchain.tail
      cases he : fs.makeDirectory mode p with
      | ok fs₁ =>
        rw [makeDirectories, he]
        exact .of_created hw he
      | error e =>
        by_cases hne : e = .noSuchEntry
        · subst hne
          rw [makeDirectories, he]
          dsimp only
          cases hr : makeDirectories mode above fs with
          | mk result fs₁ =>
            rw [hr] at ih
            cases result with
            | ok _ =>
              cases hm : fs₁.makeDirectory mode p with
              | ok fs₂ =>
                simp only [hm]
                exact .of_created ih.wellFormed hm
              | error e =>
                simp only [hm]
                exact .of_refused ih.wellFormed hm (fun _ => ih.settled) rfl
            | error e =>
              cases above with
              | nil => cases hr
              | cons parent above => exact ih.below (List.isChain_cons_cons.mp hchain).1
        · exact .of_refused hw he (fun h => (hne h).elim) (makeDirectories_error he hne)

/-! ## 5. After a file was written -/

/-- **Directories are still directories after a file was put.** -/
theorem isDirectory_put {loc : Location} {m : Nat} {c : Octets}
    (hput : fs.MayPut loc (.file m c)) {p : Path} (h : fs.isDirectory p = true) :
    (fs.put loc (.file m c)).isDirectory p = true := by
  obtain ⟨t, mode, hl, ht⟩ := isDirectory_iff.mp h
  unfold locate at hl
  split at hl
  · cases hl
  · next hp =>
    have harrives := arrives_iff.mpr hl
    obtain ⟨slash, hnext, -⟩ := harrives.put hput
    rw [hput.directory (harrives.entry.symm.trans ht)] at hnext
    refine isDirectory_iff.mpr ⟨⟨t.location, some (.directory mode), slash⟩, mode, ?_, rfl⟩
    unfold locate
    rw [hp]
    exact hnext.walk

theorem locateName_put {loc : Location} {m : Nat} {c : Octets}
    (hput : fs.MayPut loc (.file m c)) {p : Path} {t : Target} (h : fs.locateName p = .ok t) :
    (fs.put loc (.file m c)).locateName p
      = .ok ⟨t.location, (fs.put loc (.file m c)).find? t.location, t.slash⟩ := by
  unfold locateName at h ⊢
  split at h
  · cases h
  · exact ((arrives_iff.mpr h).put_file hput).walk

theorem locateName_put_error {loc : Location} {m : Nat} {c : Octets}
    (hput : fs.MayPut loc (.file m c)) {p : Path} {e : FileError}
    (h : fs.locateName p = .error e) :
    ∃ e', (fs.put loc (.file m c)).locateName p = .error e' ∧
      (e' = .noSuchEntry → e = .noSuchEntry) := by
  unfold locateName at h ⊢
  split at h
  · exact ⟨e, h, id⟩
  · exact walk_put_error hput _ _ _ h

/-- A directory that could not be created still cannot after a file was put. -/
theorem makeDirectory_put {mode : Nat} {loc : Location} {m : Nat} {c : Octets}
    (hput : fs.MayPut loc (.file m c)) {p : Path} {e : FileError}
    (h : fs.makeDirectory mode p = .error e) :
    ∃ e', (fs.put loc (.file m c)).makeDirectory mode p = .error e' ∧
      (e' = .noSuchEntry → e = .noSuchEntry) := by
  unfold makeDirectory at h ⊢
  split at h
  · next e' hl =>
    cases h
    obtain ⟨e', hnew, hmissing⟩ := locateName_put_error hput hl
    rw [hnew]
    exact ⟨e', rfl, hmissing⟩
  · next t entry _ hl =>
    have hentry : ∃ x, (fs.put loc (.file m c)).find? t = some x := by
      rw [hput.find?_put]
      split
      · exact ⟨_, rfl⟩
      · unfold locateName at hl
        split at hl
        · cases hl
        · exact ⟨entry, (arrives_iff.mpr hl).entry.symm⟩
    obtain ⟨x, hx⟩ := hentry
    rw [locateName_put hput hl]
    simp only [hx]
    exact ⟨_, rfl, fun h => nomatch h⟩
  · cases h

theorem Settled.put {mode : Nat} {loc : Location} {m : Nat} {c : Octets}
    (hput : fs.MayPut loc (.file m c)) : ∀ {paths : List Path}, Settled mode paths fs →
    Settled mode paths (fs.put loc (.file m c))
  | [], _ => trivial
  | _ :: _, ⟨_, he, habove⟩ => by
      obtain ⟨e', he', hmissing⟩ := makeDirectory_put hput he
      exact ⟨e', he', fun h => (habove (hmissing h)).put hput⟩

end RootAuthority.FileSystem
