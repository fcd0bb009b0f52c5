import Mathlib.Algebra.Group.Nat.Defs
import RootAuthority.Der.ObjectId
import RootAuthority.Proofs.Text.Separated

/-!
# Object identifiers are told apart by their arcs

An identifier that was written (`ObjectId.IsWritten`) is made of arcs, each in as few octets as
possible. Reading its arcs gives them back (`ObjectId.laterArcs_flatMap`), so two such identifiers
that are shown alike are the same (`ObjectId.display_injective`). Octets that nobody would write do
not have this property: an arc with a zero group in front is shown like one without.
-/

namespace RootAuthority.Der.ObjectId

/-- How the arcs after the first two are written. -/
def encodeArc (n : Nat) : Octets := pushArc (n + 1) n false []

/-- **The identifier was written from arcs** of at most nine groups of seven bits. -/
def IsWritten (id : ObjectId) : Prop :=
  ∃ first : UInt8, ∃ rest : List Nat, (∀ n ∈ rest, n < 2 ^ 63) ∧
    id = first :: rest.flatMap encodeArc

/-! ## 1. One arc -/

/-- The octet of a group that is not the last. -/
theorem toNat_moreGroup (n : Nat) : (UInt8.ofNat (n % 128 + 128)).toNat = n % 128 + 128 := by
  rw [UInt8.toNat_ofNat']
  omega

theorem moreGroup_not_lt (n : Nat) : ¬UInt8.ofNat (n % 128 + 128) < 128 := by
  rw [UInt8.lt_iff_toNat_lt, toNat_moreGroup]
  exact Nat.not_lt.mpr (Nat.le_add_left 128 _)

/-- The octet of the last group. -/
theorem toNat_lastGroup (n : Nat) : (UInt8.ofNat (n % 128)).toNat = n % 128 := by
  rw [UInt8.toNat_ofNat']
  omega

theorem lastGroup_lt (n : Nat) : UInt8.ofNat (n % 128) < 128 := by
  rw [UInt8.lt_iff_toNat_lt, toNat_lastGroup]
  exact Nat.mod_lt n (by decide)

/-- Reading one more group that is not the last. -/
theorem laterArcs_more {n : Nat} (h : n < 2 ^ 63) (opened : Bool) (tail : Octets) :
    laterArcs (n / 128) opened (UInt8.ofNat (n % 128 + 128) :: tail) = laterArcs n true tail := by
  have hn : (n / 128 * 128 + (n % 128 + 128) % 128) % 0x1_0000_0000_0000_0000 = n := by omega
  rw [laterArcs, if_neg (moreGroup_not_lt n), toNat_moreGroup]
  simp only [hn]

/-- **The groups that are not the last** are read as the number they spell. -/
theorem laterArcs_pushArc_more : ∀ {fuel n : Nat}, n < fuel → n < 2 ^ 63 → n ≠ 0 →
    ∀ (opened : Bool) (tail : Octets),
      laterArcs 0 opened (pushArc fuel n true tail) = laterArcs n true tail
  | 0, n, hf, _, _, _, _ => (Nat.not_lt_zero n hf).elim
  | fuel + 1, n, hf, hn, h0, opened, tail => by
      -- by induction on the groups in front, which are read first
      rw [pushArc]
      simp only [if_true]
      split
      · next hlast =>
        have hzero : n / 128 = 0 := Nat.div_eq_of_lt hlast
        rw [← laterArcs_more hn opened tail, hzero]
      · next hlast =>
        rw [laterArcs_pushArc_more (by omega) (by omega) (by omega), laterArcs_more hn]

theorem pushArc_append : ∀ (fuel n : Nat) (more : Bool) (front tail : Octets),
    pushArc fuel n more front ++ tail = pushArc fuel n more (front ++ tail)
  | 0, _, _, _, _ => rfl
  | fuel + 1, n, more, front, tail => by
      rw [pushArc, pushArc]
      split
      · rfl
      · exact pushArc_append fuel _ true _ tail

/-- An arc in front of further octets: its groups but the last, and the last. -/
theorem encodeArc_append (n : Nat) (tail : Octets) : encodeArc n ++ tail =
    if n < 128 then UInt8.ofNat (n % 128) :: tail
    else pushArc n (n / 128) true (UInt8.ofNat (n % 128) :: tail) := by
  rw [encodeArc, pushArc_append, List.nil_append, pushArc]
  simp only [Bool.false_eq_true, if_false, Nat.add_zero]

/-- **One arc is read back.** -/
theorem laterArcs_encodeArc {n : Nat} (hn : n < 2 ^ 63) (tail : Octets) :
    laterArcs 0 false (encodeArc n ++ tail) = n :: laterArcs 0 false tail := by
  have hlast (acc : Nat) (opened : Bool) (hacc : acc = n / 128) :
      laterArcs acc opened (UInt8.ofNat (n % 128) :: tail) = n :: laterArcs 0 false tail := by
    have hn : (acc * 128 + n % 128 % 128) % 0x1_0000_0000_0000_0000 = n := by omega
    rw [laterArcs, if_pos (lastGroup_lt n), toNat_lastGroup]
    simp only [hn]
  rw [encodeArc_append]
  split
  · next hshort => exact hlast 0 false (Nat.div_eq_of_lt hshort).symm
  · next hlong =>
    rw [laterArcs_pushArc_more (by omega) (by omega) (by omega)]
    exact hlast (n / 128) true rfl

/-- How many groups that are not the last are counted. -/
theorem longestArc_pushArc_more : ∀ {fuel n : Nat} (j : Nat), n < fuel → n ≠ 0 → n < 128 ^ j →
    ∀ (current longest : Nat) (tail : Octets), ∃ k ≤ j,
      longestArc current longest (pushArc fuel n true tail)
        = longestArc (current + k) longest tail
  | 0, n, _, hf, _, _, _, _, _ => (Nat.not_lt_zero n hf).elim
  | fuel + 1, n, 0, _, h0, hj, _, _, _ => (h0 (Nat.lt_one_iff.mp hj)).elim
  | fuel + 1, n, j + 1, hf, h0, hj, current, longest, tail => by
      have hgroup (current : Nat) (tail : Octets) :
          longestArc current longest (UInt8.ofNat (n % 128 + 128) :: tail)
            = longestArc (current + 1) longest tail := by
        rw [longestArc, if_neg (moreGroup_not_lt n)]
      rw [pushArc]
      simp only [if_true]
      split
      · exact ⟨1, Nat.le_add_left 1 j, hgroup current tail⟩
      · next hlast =>
        have hfuel : n / 128 < fuel := by omega
        have hfits : n / 128 < 128 ^ j := by
          rw [Nat.pow_succ] at hj
          omega
        obtain ⟨k, hk, hcount⟩ := longestArc_pushArc_more j hfuel (by omega) hfits current longest
          (UInt8.ofNat (n % 128 + 128) :: tail)
        exact ⟨k + 1, Nat.succ_le_succ hk, hcount.trans (hgroup (current + k) tail)⟩

/-- **One arc has at most nine groups.** -/
theorem longestArc_encodeArc {n : Nat} (hn : n < 2 ^ 63) (longest : Nat) (tail : Octets) :
    ∃ k ≤ 9, longestArc 0 longest (encodeArc n ++ tail) = longestArc 0 (max longest k) tail := by
  rw [encodeArc_append]
  split
  · refine ⟨1, by decide, ?_⟩
    rw [longestArc, if_pos (lastGroup_lt n)]
  · next hlong =>
    have hfuel : n / 128 < n := by omega
    obtain ⟨k, hk, hcount⟩ := longestArc_pushArc_more 8 hfuel (by omega) (by omega) 0 longest
      (UInt8.ofNat (n % 128) :: tail)
    refine ⟨k + 1, Nat.succ_le_succ hk, hcount.trans ?_⟩
    rw [longestArc, if_pos (lastGroup_lt n), Nat.zero_add]

/-! ## 2. All arcs -/

/-- **The arcs that were written are read back.** -/
theorem laterArcs_flatMap : ∀ {rest : List Nat}, (∀ n ∈ rest, n < 2 ^ 63) →
    laterArcs 0 false (rest.flatMap encodeArc) = rest
  | [], _ => rfl
  | n :: rest, h => by
      rw [List.flatMap_cons, laterArcs_encodeArc (h n List.mem_cons_self),
        laterArcs_flatMap fun m hm => h m (List.mem_cons_of_mem n hm)]

theorem longestArc_flatMap : ∀ {rest : List Nat} (longest : Nat), (∀ n ∈ rest, n < 2 ^ 63) →
    longest ≤ 9 → longestArc 0 longest (rest.flatMap encodeArc) ≤ 9
  | [], _, _, hl => hl
  | n :: rest, longest, h, hl => by
      obtain ⟨k, hk, hcount⟩ :=
        longestArc_encodeArc (h n List.mem_cons_self) longest (rest.flatMap encodeArc)
      rw [List.flatMap_cons, hcount]
      exact longestArc_flatMap _ (fun m hm => h m (List.mem_cons_of_mem n hm))
        (Nat.max_le.mpr ⟨hl, hk⟩)

/-- The numbers that are shown of an identifier: its arcs, but one for a single zero octet. -/
def shownArcs (first : UInt8) (rest : List Nat) : List Nat :=
  if first = 0 ∧ rest = [] then [0] else first.toNat / 40 :: first.toNat % 40 :: rest

theorem shownArcs_ne_nil (first : UInt8) (rest : List Nat) : shownArcs first rest ≠ [] := by
  unfold shownArcs
  split <;> exact List.cons_ne_nil _ _

theorem shownArcs_injective {first first' : UInt8} {rest rest' : List Nat}
    (h : shownArcs first rest = shownArcs first' rest') : first = first' ∧ rest = rest' := by
  unfold shownArcs at h
  split at h <;> split at h
  · next hz hz' => exact ⟨hz.1.trans hz'.1.symm, hz.2.trans hz'.2.symm⟩
  · exact absurd (congrArg List.length h) (by simp)
  · exact absurd (congrArg List.length h) (by simp)
  · simp only [List.cons.injEq] at h
    obtain ⟨hquotient, hremainder, hrest⟩ := h
    refine ⟨UInt8.toNat_inj.mp ?_, hrest⟩
    rw [← Nat.div_add_mod first.toNat 40, hquotient, hremainder, Nat.div_add_mod]

/-- **What is shown of an identifier that was written** are its arcs. -/
theorem display_eq {first : UInt8} {rest : List Nat} (h : ∀ n ∈ rest, n < 2 ^ 63) :
    display (first :: rest.flatMap encodeArc)
      = ".".intercalate ((shownArcs first rest).map toString) := by
  have hread := laterArcs_flatMap h
  have hlong : ¬64 < 7 * longestArc 0 0 (rest.flatMap encodeArc) := by
    have hnine := longestArc_flatMap 0 h (by decide)
    omega
  unfold display shownArcs
  split
  · next heq => cases heq
  · next heq =>
    rw [List.cons.injEq] at heq
    have hrest : rest = [] := hread.symm.trans (congrArg (laterArcs 0 false) heq.2)
    rw [if_pos ⟨heq.1, hrest⟩]
    rfl
  · next hzero heq =>
    rw [List.cons.injEq] at heq
    obtain ⟨rfl, rfl⟩ := heq
    have hnot : ¬(first = 0 ∧ rest = []) := by
      intro hz
      exact hzero hz.1 (by rw [hz.2, List.flatMap_nil])
    rw [if_neg hlong, hread, if_neg hnot]

/-! ## 3. Telling identifiers apart -/

theorem isDigit_of_mem_toString {n : Nat} {c : Char} (h : c ∈ (toString n).toList) :
    c.isDigit := by
  rw [Nat.toString_eq_repr, Nat.toList_repr] at h
  exact Nat.isDigit_of_mem_toDigits (by decide) (by decide) h

theorem toString_injective {n m : Nat} (h : toString n = toString m) : n = m := by
  have hdigits : Nat.toDigits 10 n = Nat.toDigits 10 m := by
    rw [← Nat.toList_repr, ← Nat.toList_repr, ← Nat.toString_eq_repr, ← Nat.toString_eq_repr, h]
  rw [← Nat.ofDigitChars_ten_toDigits (n := n), hdigits, Nat.ofDigitChars_ten_toDigits]

theorem toList_display {first : UInt8} {rest : List Nat} (h : ∀ n ∈ rest, n < 2 ^ 63) :
    (display (first :: rest.flatMap encodeArc)).toList
      = ['.'].intercalate ((shownArcs first rest).map fun n => (toString n).toList) := by
  rw [display_eq h, String.toList_intercalate, List.map_map]
  rfl

/-- **Identifiers that were written and are shown alike are the same.** -/
theorem display_injective {id id' : ObjectId} (hid : IsWritten id) (hid' : IsWritten id')
    (h : display id = display id') : id = id' := by
  obtain ⟨first, rest, hrest, rfl⟩ := hid
  obtain ⟨first', rest', hrest', rfl⟩ := hid'
  have hpieces (first : UInt8) (rest : List Nat) (h : ∀ n ∈ rest, n < 2 ^ 63) :
      Text.pieces '.' (display (first :: rest.flatMap encodeArc)).toList
        = (shownArcs first rest).map fun n => (toString n).toList := by
    rw [toList_display h, Text.pieces_intercalate]
    · exact fun hnil => shownArcs_ne_nil first rest (List.map_eq_nil_iff.mp hnil)
    · intro piece hm
      obtain ⟨n, _, rfl⟩ := List.mem_map.mp hm
      exact fun hdot => absurd (isDigit_of_mem_toString hdot) (by decide)
  have harcs : shownArcs first rest = shownArcs first' rest' := by
    refine List.map_injective_iff.mpr ?_
      ((hpieces first rest hrest).symm.trans ?_)
    · exact fun n m hnm => toString_injective (String.toList_inj.mp hnm)
    · rw [h, hpieces first' rest' hrest']
  obtain ⟨rfl, rfl⟩ := shownArcs_injective harcs
  rfl

/-- Only digits and dots are shown. -/
theorem mem_display {id : ObjectId} (hid : IsWritten id) {c : Char} (h : c ∈ (display id).toList) :
    c = '.' ∨ c.isDigit := by
  obtain ⟨first, rest, hrest, rfl⟩ := hid
  rw [toList_display hrest] at h
  rcases Text.mem_intercalate h with h | ⟨digits, hm, hc⟩
  · exact .inl (List.mem_singleton.mp h)
  · obtain ⟨n, _, rfl⟩ := List.mem_map.mp hm
    exact .inr (isDigit_of_mem_toString hc)

end RootAuthority.Der.ObjectId
