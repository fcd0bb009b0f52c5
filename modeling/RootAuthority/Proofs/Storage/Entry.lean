import RootAuthority.Proofs.Storage.Directory

/-!
# The path of an entry of a directory

A name without a slash is put behind the path of a directory. What comes out has one more step than
the path of the directory (`Path.steps_join`), unless the name is a single dot. It is the path of an
entry of the directory (`Path.IsEntryOf`) exactly if the name is neither one dot nor two
(`Path.isEntryOf_join_iff`).

Where the path of the directory leads to a directory, the longer path leads to the entry with that
name in it, with one dot to the directory itself, and with two to the one above
(`FileSystem.locate_join`).
-/

namespace RootAuthority

namespace Path

variable {dir p q : Path} {name : String}

/-! ## 1. Names -/

theorem isAbsolute_of_name (hname : '/' ∉ name.toList) : isAbsolute name = false :=
  decide_eq_false fun hhead => hname (List.mem_of_head? hhead)

theorem names_of_name (hname : '/' ∉ name.toList) : names name = [name] := by
  unfold names
  rw [Text.pieces_self hname]
  simp

theorem join_empty (hq : isAbsolute q = false) : join "" q = q := by
  simp [join, hq]

/-- **The names of a path with a relative one behind it**: those of the path, without an empty one
    at its end, and those of the other. -/
theorem names_join (hdir : dir ≠ "") (hq : isAbsolute q = false) :
    ∃ ns ≠ [], names (dir.join q) = ns ++ names q ∧ (names dir = ns ∨ names dir = ns ++ [""]) := by
  have hne (text : List Char) : (Text.pieces '/' text).map String.ofList ≠ [] := by
    simpa using Text.pieces_ne_nil '/' text
  unfold join
  rw [hq]
  simp only [Bool.false_eq_true, if_false, String.isEmpty_iff, hdir, false_or]
  split
  · next hslash =>
    obtain ⟨front, hfront⟩ := List.getLast?_eq_some_iff.mp hslash
    refine ⟨_, hne front, ?_, .inr ?_⟩
    · unfold names
      rw [String.toList_append, hfront, List.append_assoc, List.singleton_append,
        Text.pieces_append_separator, List.map_append]
    · unfold names
      rw [hfront, Text.pieces_append_separator]
      simp [Text.pieces]
  · refine ⟨names dir, hne _, ?_, .inl rfl⟩
    unfold names
    rw [String.toList_append, String.toList_append, List.append_assoc,
      show "/".toList = ['/'] from rfl, List.singleton_append, Text.pieces_append_separator,
      List.map_append]

theorem isAbsolute_join (dir : Path) (hq : isAbsolute q = false) :
    isAbsolute (dir.join q) = isAbsolute dir := by
  by_cases hdir : dir = ""
  · rw [hdir, join_empty hq, hq]
    rfl
  · obtain ⟨c, cs, hcons⟩ := List.exists_cons_of_ne_nil (show dir.toList ≠ [] by simpa using hdir)
    unfold join
    rw [hq]
    unfold isAbsolute
    simp only [Bool.false_eq_true, if_false]
    split
    · simp [hcons]
    · simp [hcons]

/-! ## 2. Steps -/

theorem steps_of_names {first : String} {rest : List String} (h : names p = first :: rest) :
    steps p = (if first = "" then [] else [first]) ++ counted rest := by
  unfold steps
  simp only [h]
  split
  · rfl
  · rfl

/-- **The counting names of a relative path are steps behind a path.** -/
theorem steps_join_relative (hdir : dir ≠ "") (hq : isAbsolute q = false) :
    steps (dir.join q) = steps dir ++ counted (names q) := by
  obtain ⟨ns, hns, hjoin, hold⟩ := names_join hdir hq
  obtain ⟨first, rest, rfl⟩ := List.exists_cons_of_ne_nil hns
  rw [List.cons_append] at hjoin hold
  have hsteps : steps dir = (if first = "" then [] else [first]) ++ counted rest := by
    rcases hold with hold | hold
    · exact steps_of_names hold
    · rw [steps_of_names hold, counted_append]
      simp [counted]
  rw [steps_of_names hjoin, counted_append, hsteps, List.append_assoc]

/-- **One more name is one more step**, unless it is a dot. -/
theorem steps_join (dir : Path) (hname : '/' ∉ name.toList) (hne : name ≠ "") :
    steps (dir.join name) = steps dir ++ if name = "." ∧ dir ≠ "" then [] else [name] := by
  have hnames := names_of_name hname
  have hrelative := isAbsolute_of_name hname
  by_cases hdir : dir = ""
  · rw [hdir, join_empty hrelative, steps_of_names hnames, if_neg hne]
    simp [counted, show steps "" = [] from rfl]
  · rw [steps_join_relative hdir hrelative, hnames]
    by_cases hdot : name = "."
    · simp [counted, hdot, hdir]
    · simp [counted, hdot, hne]

/-! ## 3. Entries -/

/-- **The path is that of a directory with one ordinary name more.** -/
structure IsEntryOf (p dir : Path) (name : String) : Prop where
  absolute : isAbsolute p = isAbsolute dir
  steps : steps p = steps dir ++ [name]
  notHere : name ≠ "."
  notUp : name ≠ ".."

/-- **Which names lead to an entry of a directory**: all but one dot and two. The entry has that
    name. -/
theorem isEntryOf_join_iff (dir : Path) (hname : '/' ∉ name.toList) (hne : name ≠ "")
    (entry : String) :
    (dir.join name).IsEntryOf dir entry ↔ entry = name ∧ name ≠ "." ∧ name ≠ ".." := by
  have hsteps := steps_join dir hname hne
  constructor
  · rintro ⟨-, hentry, hhere, hup⟩
    rw [hsteps, List.append_cancel_left_eq] at hentry
    split at hentry
    · cases hentry
    · obtain rfl := (List.cons.inj hentry).1
      exact ⟨rfl, hhere, hup⟩
  · rintro ⟨rfl, hhere, hup⟩
    rw [if_neg fun h => hhere h.1] at hsteps
    exact ⟨isAbsolute_join dir (isAbsolute_of_name hname), hsteps, hhere, hup⟩

/-- **Different names lead to different places**, as far as the steps of the paths say. -/
theorem steps_join_ne (dir : Path) {name' : String} (hname : '/' ∉ name.toList) (hne : name ≠ "")
    (hname' : '/' ∉ name'.toList) (hne' : name' ≠ "") (h : name ≠ name') :
    steps (dir.join name) ≠ steps (dir.join name') := by
  rw [steps_join dir hname hne, steps_join dir hname' hne']
  intro heq
  rw [List.append_cancel_left_eq] at heq
  split at heq
  · next hdot =>
    split at heq
    · next hdot' => exact h (hdot.1.trans hdot'.1.symm)
    · cases heq
  · split at heq
    · cases heq
    · exact h (List.cons.inj heq).1

end Path

/-! ## 4. Walks -/

namespace FileSystem

variable {fs : FileSystem} {follow : Bool} {k : Nat} {d : Location} {dir : Path} {name : String}

/-- Where one more name leads from a directory, a last link not being followed. -/
def beyond (d : Location) (name : String) : Location :=
  if name = "." then d else if name = ".." then d.dropLast else d ++ [name]

/-- One name leads to a place beyond the directory, whatever stands there. -/
theorem arrives_name (hne : name ≠ "") (hshort : name.utf8ByteSize ≤ nameLimit) :
    Arrives fs false k d [name] ⟨beyond d name, fs.find? (beyond d name), false⟩ := by
  unfold beyond
  split
  · next hhere => exact .skip (.inr hhere) .here
  · next hhere =>
    split
    · next hup =>
      subst hup
      exact .up .here
    · next hup =>
      have ho : IsOrdinary name :=
        { counts := fun h => h.elim hne hhere
          notUp := hup
          short := Nat.not_lt.mpr hshort }
      cases he : fs.find? (d ++ [name]) with
      | none => exact .vacant ho he rfl
      | some e =>
        cases e with
        | file m c => exact .file ho he rfl
        | directory m =>
          rw [← he]
          exact .directory ho he .here
        | link target => exact .link ho he rfl

/-- **A walk through directories goes on with the last name.** -/
theorem Enters.arrives_append {l : List String} {d' : Location} {t : Target}
    (h : Enters fs k d l d') (hlast : ∀ k, Arrives fs follow k d' [name] t) :
    ∀ {ns : List String}, Path.counted ns = l → Arrives fs follow k d (ns ++ [name]) t := by
  induction h with
  | here =>
    intro ns hns
    refine .skipAll (fun n hn => ?_) (hlast _)
    have hn := List.filter_eq_nil_iff.mp hns n hn
    simp only [decide_eq_true_eq] at hn
    exact skipped_of_not_counts hn
  | up _ ih =>
    intro ns hns
    obtain ⟨junk, ns', rfl, hj, hrest⟩ := exists_of_counted_eq_cons hns
    rw [List.append_assoc, List.cons_append]
    exact .skipAll hj (.up (ih hlast hrest))
  | down ho he _ ih =>
    intro ns hns
    obtain ⟨junk, ns', rfl, hj, hrest⟩ := exists_of_counted_eq_cons hns
    rw [List.append_assoc, List.cons_append]
    exact .skipAll hj (.directory ho he (ih hlast hrest))
  | link ho he _ ih =>
    intro ns hns
    obtain ⟨junk, ns', rfl, hj, hrest⟩ := exists_of_counted_eq_cons hns
    rw [List.append_assoc, List.cons_append]
    refine .skipAll hj (.followed ho he (by simp) ?_)
    rw [← List.append_assoc]
    exact ih hlast (by rw [Path.counted_append, hrest])

/-- **Where the path of an entry leads**: where its directory is, to the place beyond it with that
    name. -/
theorem locate_join (hdir : fs.locate true dir = .ok t) {m : Nat}
    (hname : '/' ∉ name.toList) (hne : name ≠ "") (hshort : name.utf8ByteSize ≤ nameLimit)
    (hfault : pathFault? (dir.join name) = none) (ht : t.entry? = some (.directory m)) :
    fs.locate false (dir.join name)
      = .ok ⟨beyond t.location name, fs.find? (beyond t.location name), false⟩ := by
  unfold locate at hdir
  split at hdir
  · cases hdir
  · next hp =>
    have hnonempty : dir ≠ "" := by
      rintro rfl
      cases hp
    have hrelative := Path.isAbsolute_of_name hname
    obtain ⟨ns, -, hnames, hold⟩ := Path.names_join hnonempty hrelative
    rw [Path.names_of_name hname] at hnames
    have henters := (arrives_iff.mpr hdir).enters ht
    have hcounted : Path.counted ns = Path.counted dir.names := by
      rcases hold with hold | hold
      · rw [hold]
      · rw [hold, Path.counted_append]
        simp [Path.counted]
    have hwalk := (henters.arrives_append (fun k => arrives_name hne hshort) hcounted).walk
    unfold locate
    rw [hfault]
    simp only [hnames, startOf, Path.isAbsolute_join dir hrelative]
    exact hwalk

end FileSystem

end RootAuthority
