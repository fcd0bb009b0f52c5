import Mathlib.Data.List.Chain
import RootAuthority.Proofs.Octets
import RootAuthority.Proofs.Text.Separated
import RootAuthority.Storage.FileSystem

/-!
# The paths above a path

Of the names in a path only those count that a walk looks up or goes up by (`Path.counted`).

* `Path.counted_names_ofSteps`: a path made of names has these names.
* `Path.isChain_ancestors`: each path in the list of ancestors is the parent of the one before it
  (`Path.IsParent`): it has all its counting names but the last, and is no harder to look up.
-/

namespace RootAuthority

namespace Path

/-! ## 1. Names -/

/-- The names that are looked up or lead up. -/
def counted (ns : List String) : List String := ns.filter fun n => n ≠ "" ∧ n ≠ "."

@[simp]
theorem counted_append (ns ms : List String) : counted (ns ++ ms) = counted ns ++ counted ms :=
  List.filter_append ..

theorem counted_cons_of_ne {n : String} (h : n ≠ "") (h' : n ≠ ".") (ns : List String) :
    counted (n :: ns) = n :: counted ns := by
  simp [counted, h, h']

theorem counted_counted (ns : List String) : counted (counted ns) = counted ns := by
  simp [counted]

theorem slash_not_mem_of_names {p : Path} {n : String} (h : n ∈ names p) : '/' ∉ n.toList := by
  obtain ⟨piece, hp, rfl⟩ := List.mem_map.mp h
  rw [String.toList_ofList]
  exact Text.not_mem_of_mem_pieces hp

theorem toList_ofSteps (absolute : Bool) (ns : List String) :
    (ofSteps absolute ns).toList
      = (if absolute then ['/'] else []) ++ ['/'].intercalate (ns.map String.toList) := by
  unfold ofSteps
  cases absolute <;> simp

theorem names_eq_of_toList {p : Path} {ns : List String} (hns : ns ≠ [])
    (h : ∀ n ∈ ns, '/' ∉ n.toList) (hp : p.toList = ['/'].intercalate (ns.map String.toList)) :
    names p = ns := by
  unfold names
  rw [hp, Text.pieces_intercalate (by simpa using hns)]
  · simp
  · intro piece hm
    obtain ⟨n, hn, rfl⟩ := List.mem_map.mp hm
    exact h n hn

/-- An absolute path has an empty name in front. -/
theorem names_of_toList_cons {p : Path} {text : List Char} (hp : p.toList = '/' :: text) :
    names p = "" :: (Text.pieces '/' text).map String.ofList := by
  unfold names
  rw [hp, Text.pieces, if_pos rfl]
  rfl

/-- **A path made of names has these names.** -/
theorem counted_names_ofSteps {absolute : Bool} {ns : List String}
    (hns : ns ≠ [] ∨ absolute = true) (h : ∀ n ∈ ns, '/' ∉ n.toList) :
    counted (names (ofSteps absolute ns)) = counted ns := by
  have hlist := toList_ofSteps absolute ns
  cases absolute with
  | false =>
    rcases hns with hns | hns
    · rw [names_eq_of_toList hns h (by simpa using hlist)]
    · cases hns
  | true =>
    rw [names_of_toList_cons (by simpa using hlist)]
    by_cases hnil : ns = []
    · subst hnil
      rfl
    · rw [Text.pieces_intercalate (by simpa using hnil)]
      · simp [counted]
      · intro piece hm
        obtain ⟨n, hn, rfl⟩ := List.mem_map.mp hm
        exact h n hn

theorem isAbsolute_ofSteps {absolute : Bool} {ns : List String}
    (h : ∀ n ∈ ns, '/' ∉ n.toList) (hne : ∀ n ∈ ns, n ≠ "") :
    isAbsolute (ofSteps absolute ns) = absolute := by
  unfold isAbsolute
  rw [toList_ofSteps]
  cases absolute with
  | true => rfl
  | false =>
    cases ns with
    | nil => rfl
    | cons n ns =>
      have hslash := h n List.mem_cons_self
      have hempty : n.toList ≠ [] := by simpa using hne n List.mem_cons_self
      obtain ⟨c, cs, hc⟩ := List.exists_cons_of_ne_nil hempty
      have hcs : c ≠ '/' := fun e => hslash (by rw [hc, e]; exact List.mem_cons_self)
      cases ns with
      | nil => simp [hc, hcs]
      | cons m ns => simp [List.intercalate_cons_cons, hc, hcs]

/-! ## 2. Steps -/

/-- The steps of an absolute path are its names that count. -/
theorem steps_of_toList_cons {p : Path} {text : List Char} (hp : p.toList = '/' :: text) :
    steps p = counted ((Text.pieces '/' text).map String.ofList) := by
  unfold steps
  rw [names_of_toList_cons hp]
  rfl

theorem toList_of_isAbsolute {p : Path} (h : isAbsolute p = true) :
    ∃ text, p.toList = '/' :: text := by
  unfold isAbsolute at h
  cases hp : p.toList with
  | nil => simp [hp] at h
  | cons c text =>
    simp only [hp, List.head?_cons, Option.some.injEq, decide_eq_true_eq] at h
    exact ⟨text, by rw [h]⟩

/-- A relative path that is not empty begins with a name. -/
theorem steps_of_relative {p : Path} (h : isAbsolute p = false) (hp : p ≠ "") :
    ∃ first rest, names p = first :: rest ∧ first ≠ "" ∧ steps p = first :: counted rest := by
  have hne : p.toList ≠ [] := by simpa using hp
  obtain ⟨c, text, hc⟩ := List.exists_cons_of_ne_nil hne
  have hcs : c ≠ '/' := by
    rintro rfl
    simp [isAbsolute, hc] at h
  obtain ⟨first, others, hpieces⟩ := List.exists_cons_of_ne_nil (Text.pieces_ne_nil '/' text)
  have hnames : names p = String.ofList (c :: first) :: others.map String.ofList := by
    simp [names, hc, Text.pieces, hcs, hpieces]
  have hfirst : String.ofList (c :: first) ≠ "" := by
    intro he
    have := congrArg String.toList he
    simp at this
  refine ⟨_, _, hnames, hfirst, ?_⟩
  unfold steps
  rw [hnames]
  simp only [if_neg hfirst]
  rfl

/-- Nothing that counts is lost. -/
theorem counted_steps (p : Path) : counted (steps p) = counted (names p) := by
  cases ha : isAbsolute p with
  | true =>
    obtain ⟨text, ht⟩ := toList_of_isAbsolute ha
    rw [steps_of_toList_cons ht, names_of_toList_cons ht, counted_counted]
    simp [counted]
  | false =>
    by_cases hp : p = ""
    · subst hp
      decide
    · obtain ⟨first, rest, hnames, -, hsteps⟩ := steps_of_relative ha hp
      rw [hsteps, hnames]
      show counted ([first] ++ counted rest) = counted ([first] ++ rest)
      rw [counted_append, counted_append, counted_counted]

theorem steps_sublist (p : Path) : (steps p).Sublist (names p) := by
  cases ha : isAbsolute p with
  | true =>
    obtain ⟨text, ht⟩ := toList_of_isAbsolute ha
    rw [steps_of_toList_cons ht, names_of_toList_cons ht]
    exact List.filter_sublist.cons _
  | false =>
    by_cases hp : p = ""
    · subst hp
      exact List.nil_sublist _
    · obtain ⟨first, rest, hnames, -, hsteps⟩ := steps_of_relative ha hp
      rw [hsteps, hnames]
      exact List.filter_sublist.cons_cons _

/-- A path made of some of the steps of a path is made of some of its characters. -/
theorem ofSteps_sublist {p : Path} {ns : List String} (h : ns.Sublist (steps p)) :
    (ofSteps (isAbsolute p) ns).toList.Sublist p.toList := by
  rw [toList_ofSteps]
  cases ha : isAbsolute p with
  | true =>
    obtain ⟨text, ht⟩ := toList_of_isAbsolute ha
    rw [steps_of_toList_cons ht] at h
    have hsub := (h.trans List.filter_sublist).map String.toList
    have hback : ((Text.pieces '/' text).map String.ofList).map String.toList
        = Text.pieces '/' text := by simp
    rw [hback] at hsub
    have hchars : (['/'].intercalate _).Sublist _ := Text.intercalate_sublist hsub
    rw [Text.intercalate_pieces] at hchars
    rw [ht]
    exact hchars.cons_cons '/'
  | false =>
    have hsub := (h.trans (steps_sublist p)).map String.toList
    have hback : (names p).map String.toList = Text.pieces '/' p.toList := by simp [names]
    rw [hback] at hsub
    have hchars : (['/'].intercalate _).Sublist _ := Text.intercalate_sublist hsub
    rwa [Text.intercalate_pieces] at hchars

/-- Names, the innermost first, that are the steps of a path: only the outermost step of a relative
    path can be a dot. -/
def AreSteps (absolute : Bool) : List String → Prop
  | [] => True
  | n :: ns => '/' ∉ n.toList ∧ n ≠ "" ∧ (n = "." → ns = [] ∧ absolute = false) ∧
      AreSteps absolute ns

theorem AreSteps.name {absolute : Bool} : ∀ {ns : List String}, AreSteps absolute ns →
    ∀ n ∈ ns, '/' ∉ n.toList ∧ n ≠ ""
  | n :: ns, h, m, hm => by
      obtain ⟨hslash, hne, -, hrest⟩ := h
      rcases List.mem_cons.mp hm with rfl | hm
      · exact ⟨hslash, hne⟩
      · exact hrest.name m hm

theorem areSteps_of_counted {absolute : Bool} {ns : List String} {outermost : List String}
    (h : ∀ n ∈ ns, '/' ∉ n.toList ∧ n ≠ "" ∧ n ≠ ".") (ho : AreSteps absolute outermost) :
    AreSteps absolute (ns ++ outermost) := by
  induction ns with
  | nil => exact ho
  | cons n ns ih =>
    obtain ⟨hslash, hne, hdot⟩ := h n List.mem_cons_self
    exact ⟨hslash, hne, fun e => (hdot e).elim, ih fun m hm => h m (List.mem_cons_of_mem n hm)⟩

theorem areSteps_steps (p : Path) : AreSteps (isAbsolute p) (steps p).reverse := by
  have hslash : ∀ n ∈ steps p, '/' ∉ n.toList := fun n hn =>
    slash_not_mem_of_names ((steps_sublist p).mem hn)
  cases ha : isAbsolute p with
  | true =>
    obtain ⟨text, ht⟩ := toList_of_isAbsolute ha
    rw [← List.append_nil (steps p).reverse]
    refine areSteps_of_counted (fun n hn => ?_) trivial
    have hn := List.mem_reverse.mp hn
    refine ⟨hslash n hn, ?_⟩
    rw [steps_of_toList_cons ht] at hn
    simpa using (List.mem_filter.mp hn).2
  | false =>
    by_cases hp : p = ""
    · subst hp
      exact trivial
    · obtain ⟨first, rest, hnames, hfirst, hsteps⟩ := steps_of_relative ha hp
      rw [hsteps] at hslash ⊢
      rw [List.reverse_cons]
      refine areSteps_of_counted (fun n hn => ?_)
        ⟨hslash first List.mem_cons_self, hfirst, fun _ => ⟨rfl, rfl⟩, trivial⟩
      have hn := List.mem_reverse.mp hn
      refine ⟨hslash n (List.mem_cons_of_mem first hn), ?_⟩
      simpa using (List.mem_filter.mp hn).2

/-! ## 3. Parents -/

/-- **A path is the parent of another**: it has all of its counting names but the last, starts at
    the same place, and is made of some of its characters. -/
structure IsParent (p parent : Path) : Prop where
  names : ∃ last, counted p.names = counted parent.names ++ [last]
  absolute : isAbsolute parent = isAbsolute p
  nonempty : parent ≠ ""
  sublist : parent.toList.Sublist p.toList

/-- The paths made of some names and of fewer and fewer of them, the innermost being left out
    first. -/
def spelled (absolute : Bool) : List String → List Path
  | [] => if absolute then ["/"] else []
  | n :: ns => ofSteps absolute (n :: ns).reverse :: spelled absolute ns

theorem spelled_eq (absolute : Bool) (ns : List String) : spelled absolute ns.reverse
    = ((List.range ns.length).map fun k => ofSteps absolute (ns.take (ns.length - k)))
      ++ (if absolute then ["/"] else []) := by
  induction hr : ns.reverse generalizing ns with
  | nil =>
    obtain rfl := List.reverse_eq_nil_iff.mp hr
    rfl
  | cons n rs ih =>
    obtain rfl : ns = rs.reverse ++ [n] := by
      rw [← List.reverse_cons, ← hr, List.reverse_reverse]
    have hlen : (rs.reverse ++ [n]).length = rs.reverse.length + 1 := by simp
    rw [spelled, ih rs.reverse (List.reverse_reverse rs), hlen, List.range_succ_eq_map,
      List.map_cons, List.map_map, List.cons_append, Nat.sub_zero, ← hlen, List.take_length,
      List.reverse_cons]
    congr 2
    refine List.map_congr_left fun k hk => ?_
    have hlt := List.mem_range.mp hk
    rw [Function.comp_apply, List.take_append_of_le_length (by omega)]
    congr 2
    omega

/-- The ancestors of a path are the path itself and those made of its first steps. -/
theorem ancestors_eq {p : Path} {n : String} {ns : List String} (h : (steps p).reverse = n :: ns) :
    ancestors p = p :: spelled (isAbsolute p) ns := by
  have hs := spelled_eq (isAbsolute p) (steps p)
  rw [h, spelled] at hs
  unfold ancestors
  dsimp only
  split
  · next hnil =>
    have hlen : (steps p).length = 0 := by simpa using hnil
    have hcons := congrArg List.length h
    simp [hlen] at hcons
  · next x above hcons =>
    rw [hcons] at hs
    obtain ⟨-, hrest⟩ := List.cons.inj hs
    rw [hrest]
    rfl

/-- A path of one name less. -/
theorem isParent_ofSteps {p : Path} {n : String} {ns : List String}
    (hnames : counted p.names = counted (n :: ns).reverse)
    (hsub : (ofSteps (isAbsolute p) ns.reverse).toList.Sublist p.toList)
    (hs : AreSteps (isAbsolute p) (n :: ns)) (hne : ns ≠ [] ∨ isAbsolute p = true) :
    IsParent p (ofSteps (isAbsolute p) ns.reverse) := by
  obtain ⟨-, hn, hdot, hrest⟩ := hs
  have hdot : n ≠ "." := fun e => by
    obtain ⟨rfl, ha⟩ := hdot e
    rw [ha] at hne
    rcases hne with h | h
    · exact h rfl
    · cases h
  have hslash : ∀ m ∈ ns.reverse, '/' ∉ m.toList := fun m hm =>
    (hrest.name m (List.mem_reverse.mp hm)).1
  have hempty : ∀ m ∈ ns.reverse, m ≠ "" := fun m hm =>
    (hrest.name m (List.mem_reverse.mp hm)).2
  have hparent : ns.reverse ≠ [] ∨ isAbsolute p = true := by simpa using hne
  refine ⟨⟨n, ?_⟩, isAbsolute_ofSteps hslash hempty, ?_, hsub⟩
  · rw [counted_names_ofSteps hparent hslash, hnames, List.reverse_cons, counted_append,
      counted_cons_of_ne hn hdot]
    rfl
  · intro he
    have hlist := toList_ofSteps (isAbsolute p) ns.reverse
    rcases hparent with hns | ha
    · cases ha : isAbsolute p with
      | true =>
        rw [he, ha] at hlist
        simp at hlist
      | false =>
        have hself := names_eq_of_toList hns hslash (by simpa [ha] using hlist)
        rw [ha] at he
        rw [he] at hself
        exact hempty "" (hself ▸ List.mem_singleton_self "") rfl
    · rw [he, ha] at hlist
      simp at hlist

/-- A row of shorter and shorter paths begins with the longest of them; only above the first step
    of a relative path there is none. -/
theorem spelled_cases (absolute : Bool) (ns : List String) : spelled absolute ns = [] ∨
    ((ns ≠ [] ∨ absolute = true) ∧
      ∃ above, spelled absolute ns = ofSteps absolute ns.reverse :: above) := by
  cases ns with
  | nil =>
    cases absolute with
    | false => exact .inl rfl
    | true => exact .inr ⟨.inr rfl, [], rfl⟩
  | cons n ns => exact .inr ⟨.inl (by simp), spelled absolute ns, rfl⟩

/-- One path in front of the row of those above it. -/
theorem isChain_cons_spelled {p : Path} {n : String} {ns : List String}
    (hnames : counted p.names = counted (n :: ns).reverse)
    (hsub : (ofSteps (isAbsolute p) ns.reverse).toList.Sublist p.toList)
    (hs : AreSteps (isAbsolute p) (n :: ns))
    (hchain : (spelled (isAbsolute p) ns).IsChain IsParent) :
    (p :: spelled (isAbsolute p) ns).IsChain IsParent := by
  rcases spelled_cases (isAbsolute p) ns with he | ⟨hne, above, he⟩
  · rw [he]
    exact .singleton p
  · rw [he] at hchain ⊢
    exact .cons_cons (isParent_ofSteps hnames hsub hs hne) hchain

theorem isChain_spelled {absolute : Bool} : ∀ {ns : List String}, AreSteps absolute ns →
    (spelled absolute ns).IsChain IsParent
  | [], _ => by
      unfold spelled
      split
      · exact .singleton _
      · exact .nil
  | n :: ns, h => by
      have hname {m : String} (hm : m ∈ (n :: ns).reverse) := h.name m (List.mem_reverse.mp hm)
      have habsolute : isAbsolute (ofSteps absolute (n :: ns).reverse) = absolute :=
        isAbsolute_ofSteps (fun m hm => (hname hm).1) fun m hm => (hname hm).2
      have hnames : counted (names (ofSteps absolute (n :: ns).reverse))
          = counted (n :: ns).reverse :=
        counted_names_ofSteps (.inl (by simp)) fun m hm => (hname hm).1
      have hsub : (ofSteps absolute ns.reverse).toList.Sublist
          (ofSteps absolute (n :: ns).reverse).toList := by
        rw [toList_ofSteps, toList_ofSteps, List.reverse_cons]
        exact (Text.intercalate_sublist ((List.sublist_append_left _ _).map _)).append_left _
      have hchain := isChain_cons_spelled (p := ofSteps absolute (n :: ns).reverse) hnames
        (habsolute.symm ▸ hsub) (habsolute.symm ▸ h) (habsolute.symm ▸ isChain_spelled h.2.2.2)
      rwa [habsolute] at hchain

/-- **Each of the ancestors of a path is the parent of the one before it.** -/
theorem isChain_ancestors (p : Path) : (ancestors p).IsChain IsParent := by
  have hs := areSteps_steps p
  cases hr : (steps p).reverse with
  | nil =>
    have hnil : steps p = [] := List.reverse_eq_nil_iff.mp hr
    unfold ancestors
    rw [hnil]
    show List.IsChain IsParent (if isAbsolute p = true then [p] else [])
    split
    · exact .singleton _
    · exact .nil
  | cons n ns =>
    rw [hr] at hs
    rw [ancestors_eq hr]
    have hsteps : steps p = (n :: ns).reverse := by rw [← hr, List.reverse_reverse]
    have hsub : ns.reverse.Sublist (steps p) := by
      rw [hsteps, List.reverse_cons]
      exact List.sublist_append_left _ _
    exact isChain_cons_spelled (by rw [← counted_steps, hsteps]) (ofSteps_sublist hsub) hs
      (isChain_spelled hs.2.2.2)

end Path

namespace FileSystem

/-- Fewer characters take fewer octets. -/
theorem length_ofText_le {cs ds : List Char} (h : cs.Sublist ds) :
    (Octets.ofText (String.ofList cs)).length ≤ (Octets.ofText (String.ofList ds)).length := by
  rw [Octets.ofText_ofList, Octets.ofText_ofList]
  induction h with
  | slnil => exact Nat.le_refl _
  | cons c h ih =>
    rw [List.flatMap_cons, List.length_append]
    omega
  | cons_cons c h ih =>
    rw [List.flatMap_cons, List.flatMap_cons, List.length_append, List.length_append]
    omega

theorem utf8ByteSize_le {p q : Path} (h : p.toList.Sublist q.toList) :
    p.utf8ByteSize ≤ q.utf8ByteSize := by
  have hle := length_ofText_le h
  rw [String.ofList_toList, String.ofList_toList] at hle
  exact hle

/-- **The text of a parent is faultless if that of the path is.** -/
theorem pathFault?_parent {p parent : Path} (h : Path.IsParent p parent)
    (hp : pathFault? p = none) : pathFault? parent = none := by
  have hsize := utf8ByteSize_le h.sublist
  unfold pathFault? at hp ⊢
  split at hp
  · cases hp
  · next hnul =>
    split at hp
    · cases hp
    · split at hp
      · cases hp
      · rw [if_neg, if_neg, if_neg]
        · omega
        · simpa using h.nonempty
        · intro hm
          refine hnul ?_
          rw [List.contains_iff_mem] at hm ⊢
          exact h.sublist.mem hm

end FileSystem

end RootAuthority
