import Mathlib.Data.List.Basic
import RootAuthority.Text.Separated

/-!
# Cutting texts and putting them together

* `Text.pieces_intercalate`: pieces without the separator that are put together are cut into the
  same pieces.
* `Text.append_separator_inj`, `Text.separator_append_inj`: the first separator of a text, and the
  last one, tell what stands on its two sides.
-/

namespace RootAuthority.Text

theorem not_mem_of_mem_pieces {separator : Char} : ∀ {text piece : List Char},
    piece ∈ pieces separator text → separator ∉ piece
  | [], piece, h => by
      simp only [pieces, List.mem_singleton] at h
      simp [h]
  | c :: text, piece, h => by
      have ih {piece : List Char} (hm : piece ∈ pieces separator text) : separator ∉ piece :=
        not_mem_of_mem_pieces hm
      rw [pieces] at h
      split at h
      · rcases List.mem_cons.mp h with rfl | h
        · exact List.not_mem_nil
        · exact ih h
      · next hc =>
        obtain ⟨first, others, hp⟩ := List.exists_cons_of_ne_nil (pieces_ne_nil separator text)
        rw [hp] at h ih
        rcases List.mem_cons.mp h with rfl | h
        · simp [Ne.symm hc, ih List.mem_cons_self]
        · exact ih (List.mem_cons_of_mem _ h)

/-- **What comes behind a separator is cut by itself.** -/
theorem pieces_append_separator (separator : Char) (text : List Char) :
    ∀ front : List Char, pieces separator (front ++ separator :: text)
      = pieces separator front ++ pieces separator text
  | [] => by simp [pieces]
  | c :: front => by
      have ih := pieces_append_separator separator text front
      rw [List.cons_append, pieces, pieces, ih]
      split
      · rfl
      · obtain ⟨first, others, hp⟩ := List.exists_cons_of_ne_nil (pieces_ne_nil separator front)
        rw [hp]
        rfl

theorem pieces_self {separator : Char} : ∀ {piece : List Char}, separator ∉ piece →
    pieces separator piece = [piece]
  | [], _ => rfl
  | c :: piece, h => by
      have hc : c ≠ separator := fun e => h (e ▸ List.mem_cons_self)
      have ih := pieces_self fun hm => h (List.mem_cons_of_mem c hm)
      rw [pieces, if_neg hc, ih]

/-- A piece without the separator in front of one is cut off. -/
theorem pieces_append {separator : Char} {piece : List Char} (text : List Char)
    (h : separator ∉ piece) :
    pieces separator (piece ++ separator :: text) = piece :: pieces separator text := by
  rw [pieces_append_separator, pieces_self h]
  rfl

/-- **The first separator splits a text in one way.** -/
theorem append_separator_inj {separator : Char} {piece piece' text text' : List Char}
    (h : separator ∉ piece) (h' : separator ∉ piece')
    (heq : piece ++ separator :: text = piece' ++ separator :: text') :
    piece = piece' ∧ text = text' := by
  have hpieces := congrArg (pieces separator) heq
  rw [pieces_append text h, pieces_append text' h'] at hpieces
  obtain rfl := (List.cons.inj hpieces).1
  exact ⟨rfl, (List.cons.inj (List.append_cancel_left heq)).2⟩

/-- **The last separator splits a text in one way.** -/
theorem separator_append_inj {separator : Char} {piece piece' text text' : List Char}
    (h : separator ∉ piece) (h' : separator ∉ piece')
    (heq : text ++ separator :: piece = text' ++ separator :: piece') :
    text = text' ∧ piece = piece' := by
  have hback : piece.reverse ++ separator :: text.reverse
      = piece'.reverse ++ separator :: text'.reverse := by
    simpa using congrArg List.reverse heq
  obtain ⟨hpiece, htext⟩ := append_separator_inj (by simpa using h) (by simpa using h') hback
  exact ⟨List.reverse_inj.mp htext, List.reverse_inj.mp hpiece⟩

/-- **What was put together is cut into the same pieces.** -/
theorem pieces_intercalate {separator : Char} : ∀ {ps : List (List Char)}, ps ≠ [] →
    (∀ piece ∈ ps, separator ∉ piece) → pieces separator ([separator].intercalate ps) = ps
  | [], h, _ => (h rfl).elim
  | [piece], _, h => by
      rw [List.intercalate_singleton, pieces_self (h piece List.mem_cons_self)]
  | piece :: next :: ps, _, h => by
      have ih := pieces_intercalate (show next :: ps ≠ [] by simp)
        fun q hq => h q (List.mem_cons_of_mem _ hq)
      rw [List.intercalate_cons_cons, List.append_assoc, List.singleton_append,
        pieces_append _ (h piece List.mem_cons_self), ih]

/-- **Pieces that each end in a separator** are cut there, and nothing is left after the last. -/
theorem pieces_flatMap_ended {separator : Char} : ∀ {ps : List (List Char)},
    (∀ piece ∈ ps, separator ∉ piece) →
    pieces separator (ps.flatMap (· ++ [separator])) = ps ++ [[]]
  | [], _ => rfl
  | piece :: ps, h => by
      have ih := pieces_flatMap_ended fun q hq => h q (List.mem_cons_of_mem piece hq)
      rw [List.flatMap_cons, List.append_assoc, List.singleton_append,
        pieces_append _ (h piece List.mem_cons_self), ih]
      rfl

/-- All pieces but the first stand behind a separator. -/
theorem intercalate_cons_eq (separator : List Char) : ∀ (piece : List Char) (ps : List (List Char)),
    separator.intercalate (piece :: ps) = piece ++ ps.flatMap (separator ++ ·)
  | piece, [] => by simp
  | piece, next :: ps => by
      rw [List.intercalate_cons_cons, intercalate_cons_eq separator next ps, List.flatMap_cons,
        List.append_assoc, List.append_assoc]

/-- What was put together is made of the separator and the pieces. -/
theorem mem_intercalate {separator : List Char} {c : Char} {ps : List (List Char)}
    (h : c ∈ separator.intercalate ps) : c ∈ separator ∨ ∃ piece ∈ ps, c ∈ piece := by
  cases ps with
  | nil => simp at h
  | cons piece ps =>
    rw [intercalate_cons_eq, List.mem_append, List.mem_flatMap] at h
    rcases h with h | ⟨other, hm, h⟩
    · exact .inr ⟨piece, List.mem_cons_self, h⟩
    · exact (List.mem_append.mp h).imp id fun hc => ⟨other, List.mem_cons_of_mem piece hm, hc⟩

/-- Leaving out pieces leaves out characters. -/
theorem intercalate_sublist {separator : List Char} {ps qs : List (List Char)}
    (h : ps.Sublist qs) : (separator.intercalate ps).Sublist (separator.intercalate qs) := by
  induction h with
  | slnil => exact List.Sublist.refl _
  | @cons ps qs piece h ih =>
    refine ih.trans ?_
    cases qs with
    | nil => simp
    | cons q qs =>
      rw [List.intercalate_cons_cons]
      exact List.sublist_append_right _ _
  | @cons_cons ps qs piece h ih =>
    cases ps with
    | nil =>
      cases qs with
      | nil => exact List.Sublist.refl _
      | cons q qs =>
        rw [List.intercalate_cons_cons, List.intercalate_singleton, List.append_assoc]
        exact List.sublist_append_left _ _
    | cons p ps =>
      cases qs with
      | nil => cases h
      | cons q qs =>
        rw [List.intercalate_cons_cons, List.intercalate_cons_cons]
        exact ih.append_left _

end RootAuthority.Text
