/-!
# Texts with a separator

A text between separators is cut into its pieces, empty ones included. A text without the separator is
one piece, and putting the pieces together with the separator gives the text back
(`Text.intercalate_pieces`).
-/

namespace RootAuthority.Text

/-- **The pieces of a text between separators.** -/
def pieces (separator : Char) : List Char → List (List Char)
  | [] => [[]]
  | c :: rest =>
    if c = separator then [] :: pieces separator rest
    else match pieces separator rest with
      | [] => [[c]]
      | first :: others => (c :: first) :: others

theorem pieces_ne_nil (separator : Char) : ∀ text, pieces separator text ≠ []
  | [] => by simp [pieces]
  | c :: rest => by
    rw [pieces]
    split
    · simp
    · split <;> simp

/-- **Nothing is lost by cutting.** -/
theorem intercalate_pieces (separator : Char) :
    ∀ text, [separator].intercalate (pieces separator text) = text
  | [] => by simp [pieces]
  | c :: rest => by
    have ih := intercalate_pieces separator rest
    obtain ⟨first, others, hp⟩ := List.exists_cons_of_ne_nil (pieces_ne_nil separator rest)
    rw [hp] at ih
    by_cases hc : c = separator
    · subst hc
      simp [pieces, hp, ih, List.intercalate_cons_cons]
    · cases others with
      | nil => simpa [pieces, hp, hc] using ih
      | cons next others =>
        simpa [pieces, hp, hc, List.intercalate_cons_cons] using ih

end RootAuthority.Text
