import Mathlib.Algebra.BigOperators.Fin
import Mathlib.Data.List.Sort
import RootAuthority.Serial

/-!
# Draws by several threads are draws by one

Whatever the order of their atomic steps, the draws that threads have ended give what one thread
alone would have drawn, in the order in which they ended (`Contention.Sequential`): a draw ends when
its compare-and-swap succeeds, or when it sees an exhausted source, and both give just what
`SerialSource.next` gives at that moment (`SerialSource.act_cases`). What one thread draws is said
by `SerialSource.take_eq`, so it does not matter how the threads were scheduled
(`Contention.drawn_deterministic`).
-/

namespace RootAuthority

/-! ## 1. One thread -/

namespace SerialSource

variable {s : SerialSource}

/-- The last draw comes after all others. -/
theorem take_succ (n : Nat) (s : SerialSource) :
    take (n + 1) s = ((take n s).1 ++ [(take n s).2.next.1], (take n s).2.next.2) := by
  induction n generalizing s with
  | zero => rfl
  | succ n ih =>
    have htail := ih s.next.2
    have hcons (m : Nat) : take (m + 1) s = (s.next.1 :: (take m s.next.2).1, (take m s.next.2).2) :=
      rfl
    rw [hcons (n + 1), htail, hcons n]
    rfl

/-- **What one thread draws**: the numbers after the current one up to the largest, and then
    nothing. -/
theorem take_eq (n : Nat) (s : SerialSource) :
    take n s = ((List.range' (s.current + 1) (min n (maxSerial - s.current))).map some
        ++ List.replicate (n - (maxSerial - s.current)) none,
      ⟨s.current + min n (maxSerial - s.current)⟩) := by
  induction n generalizing s with
  | zero => simp [take]
  | succ n ih =>
    have hcons : take (n + 1) s = (s.next.1 :: (take n s.next.2).1, (take n s.next.2).2) := rfl
    by_cases hlt : s.current < maxSerial
    · have hleft : maxSerial - s.current = maxSerial - (s.current + 1) + 1 := by omega
      rw [hcons, next_of_lt hlt, ih, hleft, Nat.succ_min_succ, List.range'_succ, Nat.add_sub_add_right]
      refine Prod.ext rfl (congrArg SerialSource.mk ?_)
      dsimp only
      omega
    · have hleft : maxSerial - s.current = 0 := by omega
      rw [hcons, next_of_not_lt hlt, ih, hleft]
      simp [List.replicate_succ]

/-! ## 2. One atomic step -/

/-- The thread is in the middle of a draw, with a number that had a successor. -/
def Draw.IsOpen : Draw → Prop
  | .start => True
  | .loaded seen => seen < maxSerial
  | .done _ => False

/-- **What one atomic step can do**: it goes on, having changed nothing, or it ends the draw with
    what the source would have given at once. -/
theorem act_cases (s : SerialSource) (spurious : Bool) {d : Draw} (h : d.IsOpen) :
    (∃ d', s.act spurious d = (d', s) ∧ d'.IsOpen) ∨
      s.act spurious d = (.done s.next.1, s.next.2) := by
  have hload (hact : s.act spurious d
      = if s.current < maxSerial then (.loaded s.current, s) else (.done none, s)) :
      (∃ d', s.act spurious d = (d', s) ∧ d'.IsOpen) ∨
        s.act spurious d = (.done s.next.1, s.next.2) := by
    rw [hact]
    by_cases hlt : s.current < maxSerial
    · rw [if_pos hlt]
      exact .inl ⟨.loaded s.current, rfl, hlt⟩
    · rw [if_neg hlt, next_of_not_lt hlt]
      exact .inr rfl
  cases d with
  | start => exact hload rfl
  | loaded seen =>
    by_cases hswap : s.current = seen ∧ spurious = false
    · have hseen : s.current < maxSerial := hswap.1 ▸ h
      refine .inr ?_
      rw [next_of_lt hseen, act, if_pos hswap, hswap.1]
    · exact hload (if_neg hswap)
  | done drawn => exact h.elim

end SerialSource

/-! ## 3. Any order of steps -/

namespace Contention

variable {ι : Type} [DecidableEq ι] {c : Contention ι} {seed : Nat} {calls : ι → Nat}

/-! ### One step -/

theorem step_idle {i : ι} {spurious : Bool} (hleft : c.left i = 0) : c.step (i, spurious) = c :=
  if_pos hleft

/-- A draw that goes on. -/
theorem step_open {i : ι} {spurious : Bool} {d : SerialSource.Draw} {source : SerialSource}
    (hleft : c.left i ≠ 0) (hact : c.source.act spurious (c.draw i) = (d, source))
    (hopen : d.IsOpen) : c.step (i, spurious) =
      { c with source := source, draw := fun j => if j = i then d else c.draw j } := by
  rw [step, if_neg hleft, hact]
  cases d with
  | start => rfl
  | loaded seen => rfl
  | done drawn => exact hopen.elim

/-- A draw that ends. -/
theorem step_done {i : ι} {spurious : Bool} {drawn : Option Nat} {source : SerialSource}
    (hleft : c.left i ≠ 0) (hact : c.source.act spurious (c.draw i) = (.done drawn, source)) :
    c.step (i, spurious) =
      { source := source
        draw := fun j => if j = i then .start else c.draw j
        left := fun j => if j = i then c.left i - 1 else c.left j
        ended := c.ended ++ [(i, drawn)] } := by
  rw [step, if_neg hleft, hact]

/-- What a thread has drawn after one more draw is over. -/
theorem drawnBy_of_ended {c' : Contention ι} {i : ι} {drawn : Option Nat}
    (hended : c'.ended = c.ended ++ [(i, drawn)]) (j : ι) :
    c'.drawnBy j = if j = i then c.drawnBy j ++ [drawn] else c.drawnBy j := by
  unfold drawnBy
  rw [hended, List.filter_append, List.map_append]
  split
  · next hj => simp [hj]
  · next hj => simp [Ne.symm hj]

/-! ### The invariant -/

/-- **The draws that are over are those of one thread alone**, and every thread has ended as many
    as it is to do but for those that are left. -/
structure Sequential (seed : Nat) (calls : ι → Nat) (c : Contention ι) : Prop where
  drawn : SerialSource.take c.ended.length (.ofSeed seed) = (c.ended.map (·.2), c.source)
  isOpen : ∀ i, (c.draw i).IsOpen
  counted : ∀ i, (c.drawnBy i).length + c.left i = calls i

theorem sequential_start (seed : Nat) (calls : ι → Nat) :
    Sequential seed calls (start seed calls) where
  drawn := rfl
  isOpen _ := trivial
  counted i := Nat.zero_add (calls i)

/-- **No step disturbs that.** -/
theorem Sequential.step (h : Sequential seed calls c) (move : ι × Bool) :
    Sequential seed calls (c.step move) := by
  obtain ⟨i, spurious⟩ := move
  by_cases hleft : c.left i = 0
  · rw [step_idle hleft]
    exact h
  · rcases SerialSource.act_cases c.source spurious (h.isOpen i) with ⟨d, hact, hopen⟩ | hact
    · rw [step_open hleft hact hopen]
      refine ⟨h.drawn, fun j => ?_, h.counted⟩
      dsimp only
      split
      · exact hopen
      · exact h.isOpen j
    · have hstep := step_done hleft hact
      refine ⟨?_, fun j => ?_, fun j => ?_⟩
      · rw [hstep]
        dsimp only
        rw [List.length_append, List.length_singleton, SerialSource.take_succ, h.drawn,
          List.map_append]
        rfl
      · rw [hstep]
        dsimp only
        split
        · trivial
        · exact h.isOpen j
      · have hcounted := h.counted j
        rw [drawnBy_of_ended (congrArg ended hstep), hstep]
        dsimp only
        split
        · next hj =>
          subst hj
          rw [List.length_append, List.length_singleton]
          omega
        · exact hcounted

/-- **And so no schedule does.** -/
theorem Sequential.run (h : Sequential seed calls c) (schedule : List (ι × Bool)) :
    Sequential seed calls (c.run schedule) := by
  induction schedule generalizing c with
  | nil => exact h
  | cons move schedule ih => exact ih (h.step move)

/-! ## 4. Results -/

/-- The order by which results are sorted: nothing first, then by number. -/
def drawnLe : Option Nat → Option Nat → Bool
  | none, _ => true
  | some _, none => false
  | some m, some n => m ≤ n

theorem drawnLe_trans (x y z : Option Nat) (hxy : drawnLe x y = true) (hyz : drawnLe y z = true) :
    drawnLe x z = true := by
  cases x with
  | none => rfl
  | some m =>
    cases y with
    | none => cases hxy
    | some n =>
      cases z with
      | none => cases hyz
      | some k => exact decide_eq_true (Nat.le_trans (of_decide_eq_true hxy) (of_decide_eq_true hyz))

theorem drawnLe_total (x y : Option Nat) : (drawnLe x y || drawnLe y x) = true := by
  cases x with
  | none => rfl
  | some m =>
    cases y with
    | none => rfl
    | some n =>
      rw [Bool.or_eq_true]
      exact (Nat.le_total m n).imp decide_eq_true decide_eq_true

theorem drawnLe_antisymm (x y : Option Nat) (hxy : drawnLe x y = true) (hyx : drawnLe y x = true) :
    x = y := by
  cases x with
  | none =>
    cases y with
    | none => rfl
    | some n => cases hyx
  | some m =>
    cases y with
    | none => cases hxy
    | some n => rw [Nat.le_antisymm (of_decide_eq_true hxy) (of_decide_eq_true hyx)]

/-- Nothing and then numbers in order are sorted. -/
theorem pairwise_drawnLe (m first k : Nat) :
    (List.replicate m none ++ (List.range' first k).map some).Pairwise fun x y =>
      drawnLe x y = true := by
  refine List.pairwise_append.mpr ⟨?_, ?_, ?_⟩
  · exact List.pairwise_replicate.mpr (.inr rfl)
  · refine List.pairwise_map.mpr ((List.pairwise_lt_range' (s := first) (n := k)).imp ?_)
    exact fun hlt => decide_eq_true (Nat.le_of_lt hlt)
  · intro x hx y _
    rw [List.eq_of_mem_replicate hx]
    rfl

/-- **A part of the results** is numbers in order and then nothing, too. -/
theorem parts_of_sublist {l : List (Option Nat)} {first k m : Nat}
    (h : l.Sublist ((List.range' first k).map some ++ List.replicate m none)) :
    ∃ (numbers : List Nat) (n : Nat), l = numbers.map some ++ List.replicate n none ∧
      numbers.Pairwise (· < ·) := by
  obtain ⟨l₁, l₂, rfl, h₁, h₂⟩ := List.sublist_append_iff.mp h
  obtain ⟨numbers, hnumbers, rfl⟩ := List.sublist_map_iff.mp h₁
  obtain ⟨n, -, rfl⟩ := List.sublist_replicate_iff.mp h₂
  exact ⟨numbers, n, rfl, List.Pairwise.sublist hnumbers List.pairwise_lt_range'⟩

section Threads

variable {threads : Nat}

/-- What all threads have drawn is what the draws that are over gave. -/
theorem count_drawnBy (ended : List (Fin threads × Option Nat)) (x : Option Nat) :
    ∑ i, ((ended.filter (·.1 = i)).map (·.2)).count x = (ended.map (·.2)).count x := by
  induction ended with
  | nil => simp
  | cons first ended ih =>
    have hfirst (i : Fin threads) : (((first :: ended).filter (·.1 = i)).map (·.2)).count x
        = ((ended.filter (·.1 = i)).map (·.2)).count x
          + if first.1 = i then [first.2].count x else 0 := by
      rw [List.filter_cons]
      by_cases hi : first.1 = i
      · simp [hi, List.count_cons]
      · simp [hi]
    simp only [hfirst, Finset.sum_add_distrib, ih, Finset.sum_ite_eq, Finset.mem_univ, if_true]
    simp [List.count_cons]

theorem perm_drawnBy (c : Contention (Fin threads)) :
    ((List.finRange threads).flatMap c.drawnBy).Perm (c.ended.map (·.2)) := by
  rw [List.perm_iff_count]
  intro x
  rw [List.count_flatMap, ← count_drawnBy, Fin.sum_univ_def]
  rfl

/-- When all draws are over there are as many as were asked for. -/
theorem Sequential.length_ended {c : Contention (Fin threads)} {calls : Fin threads → Nat}
    (h : Sequential seed calls c) (hdone : ∀ i, c.left i = 0) :
    c.ended.length = ∑ i, calls i := by
  have hlength := (perm_drawnBy c).length_eq
  rw [List.length_flatMap, List.length_map] at hlength
  rw [← hlength, Fin.sum_univ_def]
  refine congrArg List.sum (List.map_congr_left fun i _ => ?_)
  rw [← h.counted i, hdone i, Nat.add_zero]

/-- **What threads draw does not depend on how they are scheduled**, nor on which of their steps
    fail for no reason. Once all draws are over, these have given, one after the other, the numbers
    after the seed up to the largest, and then nothing; the source stands at the last number given.
    Each thread has seen its numbers grow, and nothing once it had seen nothing; all that the
    threads have drawn, sorted, is the same for every schedule. -/
theorem drawn_deterministic (seed : Nat) (calls : Fin threads → Nat)
    (schedule : List (Fin threads × Bool))
    (hdone : ∀ i, ((start seed calls).run schedule).left i = 0) :
    let c := (start seed calls).run schedule
    let total := ∑ i, calls i
    let k := min total (maxSerial - seed)
    c.ended.map (·.2) = (List.range' (seed + 1) k).map some ++ List.replicate (total - k) none ∧
    c.source.current = seed + k ∧
    (∀ i, (c.drawnBy i).length = calls i ∧ ∃ (numbers : List Nat) (m : Nat),
      c.drawnBy i = numbers.map some ++ List.replicate m none ∧ numbers.Pairwise (· < ·)) ∧
    ((List.finRange threads).flatMap c.drawnBy).mergeSort drawnLe
      = List.replicate (total - k) none ++ (List.range' (seed + 1) k).map some := by
  intro c total k
  have hsequential : Sequential seed calls c := (sequential_start seed calls).run schedule
  have htake := hsequential.drawn
  have hrest : total - (maxSerial - seed) = total - k := by omega
  rw [hsequential.length_ended hdone, SerialSource.take_eq] at htake
  obtain ⟨hresults, hsource⟩ := Prod.mk.inj htake
  change (List.range' (seed + 1) k).map some ++ List.replicate (total - (maxSerial - seed)) none
    = c.ended.map (·.2) at hresults
  rw [hrest] at hresults
  refine ⟨hresults.symm, congrArg SerialSource.current hsource.symm, fun i => ⟨?_, ?_⟩, ?_⟩
  · rw [← hsequential.counted i, hdone i, Nat.add_zero]
  · have hpart : (c.drawnBy i).Sublist (c.ended.map (·.2)) := List.filter_sublist.map _
    rw [← hresults] at hpart
    exact parts_of_sublist hpart
  · have hall := perm_drawnBy c
    rw [← hresults] at hall
    have hsorted := (List.mergeSort_perm _ drawnLe).trans (hall.trans List.perm_append_comm)
    exact hsorted.eq_of_pairwise (fun x y _ _ => drawnLe_antisymm x y)
      (List.pairwise_mergeSort drawnLe_trans drawnLe_total _) (pairwise_drawnLe _ _ _)

/-- Two threads, one of which draws twice, and two numbers are left. -/
def lastTwo : Contention (Fin 2) := start (maxSerial - 2) ![2, 1]

/-- Both threads load. The first one fails for no reason, the second one is first, and the first one
    finds another value, then the last number, and then nothing. -/
def contended : List (Fin 2 × Bool) :=
  [(0, false), (1, false), (0, true), (1, false), (0, false), (0, false), (0, false)]

/-- The two threads race for the last two numbers. -/
theorem drawn_deterministic_contended : (∀ i, (lastTwo.run contended).left i = 0) ∧
    (lastTwo.run contended).source.current = maxSerial ∧
    (lastTwo.run contended).drawnBy 0 = [some maxSerial, none] ∧
    (lastTwo.run contended).drawnBy 1 = [some (maxSerial - 1)] ∧
    ((List.finRange 2).flatMap (lastTwo.run contended).drawnBy).mergeSort drawnLe
      = [none, some (maxSerial - 1), some maxSerial] := by
  have hdone : ∀ i, (lastTwo.run contended).left i = 0 := by decide
  obtain ⟨-, hsource, -, hsorted⟩ := drawn_deterministic _ ![2, 1] contended hdone
  exact ⟨hdone, hsource, by decide, by decide, hsorted⟩

end Threads

end Contention

end RootAuthority
