import RootAuthority.Proofs.Yaml.Flow

/-!
# Scalars are read back

A word ends where the braces and brackets around it go on (`readPlain_word`), and a text between
double quotes is read up to the closing quote with its escapes undone (`readDoubleQuoted_escape`).
In quotes a run of spaces is one gap, so the reading goes from one gap or character to the next.
-/

namespace RootAuthority.Yaml

open FlowValue

/-- The text goes on in a way that ends a word inside braces and brackets: with a colon and a space,
    or with a character that structures them. -/
inductive EndsWord : List Char → Prop
  | colon {rest : List Char} : EndsWord (':' :: ' ' :: rest)
  | indicator {c : Char} {rest : List Char} (h : isFlowIndicator c = true) : EndsWord (c :: rest)

variable {c : Char} {cs word rest : List Char}

/-! ## 1. Characters -/

theorem isBreak_of_isPrintable (h : isPrintable c = true) : isBreak c = false := by
  rw [Bool.eq_false_iff]
  intro hbreak
  simp only [isBreak, Bool.or_eq_true, decide_eq_true_eq] at hbreak
  rcases hbreak with (((rfl | rfl) | rfl) | rfl) | rfl <;> revert h <;> decide

theorem isBlank_of_isPrintable (h : isPrintable c = true) :
    isBlank c = true ↔ c = ' ' := by
  have htab : c ≠ '\t' := by
    rintro rfl
    revert h
    decide
  simp [isBlank, htab]

theorem isFlowIndicator_iff :
    isFlowIndicator c = true ↔ c = ',' ∨ c = '[' ∨ c = ']' ∨ c = '{' ∨ c = '}' := by
  simp [isFlowIndicator, or_assoc]

/-- A word has no gaps. -/
theorem not_gap_of_isWordCharacter (hc : isWordCharacter c = true) :
    isBlank c = false ∧ isBreak c = false := by
  have hprintable := isPrintable_of_isWordCharacter hc
  have hspace : c ≠ ' ' := ne_of_isWordCharacter hc rfl
  exact ⟨Bool.eq_false_iff.mpr (mt (isBlank_of_isPrintable hprintable).mp hspace),
    isBreak_of_isPrintable hprintable⟩

theorem not_isFlowIndicator_of_isWordCharacter (hc : isWordCharacter c = true) :
    isFlowIndicator c = false := by
  rw [Bool.eq_false_iff]
  intro hindicator
  rcases isFlowIndicator_iff.mp hindicator with rfl | rfl | rfl | rfl | rfl <;> cases hc

/-! ## 2. Gaps -/

/-- No gap is read where there is none. -/
theorem Gap.read_of_not_atGap {indent : Nat} {g : Gap} (h : atGap rest = false) :
    Gap.read indent g rest = some (g, rest) := by
  cases rest with
  | nil => cases h
  | cons c rest =>
    obtain ⟨hblank, hbreak⟩ : isBlank c = false ∧ isBreak c = false := by simpa [atGap] using h
    have hreturn : c ≠ '\r' := by
      rintro rfl
      cases hbreak
    rw [Gap.read.eq_3 _ _ _ _ (by simp [hreturn])]
    simp [hblank, hbreak]

/-- A run of spaces is one gap. -/
theorem Gap.read_spaces {indent n : Nat} {g : Gap} (hg : g.broken = false) (h : atGap rest = false) :
    Gap.read indent g (List.replicate n ' ' ++ rest)
      = some ({ g with blanks := g.blanks ++ List.replicate n ' ' }, rest) := by
  induction n generalizing g with
  | zero => simpa using Gap.read_of_not_atGap h
  | succ n ih =>
    rw [List.replicate_succ, List.cons_append, Gap.read.eq_3 _ _ _ _ (by simp), if_pos (by decide),
      hg, if_neg Bool.false_ne_true, ih rfl, List.append_assoc, List.singleton_append]

/-! ## 3. Words -/

theorem EndsWord.atGap_eq_false : EndsWord rest → atGap rest = false
  | .colon => rfl
  | .indicator h => by
    rcases isFlowIndicator_iff.mp h with rfl | rfl | rfl | rfl | rfl <;> rfl

theorem readPlainWord_of_endsWord : EndsWord rest → readPlainWord true rest = some ([], rest)
  | .colon => rfl
  | .indicator h => by
    rcases isFlowIndicator_iff.mp h with rfl | rfl | rfl | rfl | rfl <;> rfl

/-- A character of a word is none of those at which a word may end. -/
theorem readPlainWord_cons (hc : isWordCharacter c = true) : readPlainWord true (c :: rest)
    = (readPlainWord true rest).map fun (word, rest) => (c :: word, rest) := by
  obtain ⟨hblank, hbreak⟩ := not_gap_of_isWordCharacter hc
  have hcolon : c ≠ ':' := ne_of_isWordCharacter hc rfl
  have hindicator := not_isFlowIndicator_of_isWordCharacter hc
  rw [readPlainWord, if_neg (by simp [hblank, hbreak]), if_neg (by simp [hcolon]),
    if_neg (by simp [hcolon, hindicator])]

theorem readPlainWord_word (hword : ∀ c ∈ word, isWordCharacter c = true) (h : EndsWord rest) :
    readPlainWord true (word ++ rest) = some (word, rest) := by
  induction word with
  | nil => exact readPlainWord_of_endsWord h
  | cons c word ih =>
    obtain ⟨hc, hword⟩ := List.forall_mem_cons.mp hword
    rw [List.cons_append, readPlainWord_cons hc, ih hword, Option.map_some]

/-- **A word is read whole.** -/
theorem readPlain_word {inner : Nat} (hword : ∀ c ∈ word, isWordCharacter c = true)
    (h : EndsWord rest) : readPlain true inner (word ++ rest) = some (word, false, rest) := by
  have hrest : readPlainRest true inner rest.length rest = some ([], false, rest) := by
    cases rest with
    | nil => rfl
    | cons c rest =>
      simp [readPlainRest, Gap.read_of_not_atGap h.atGap_eq_false]
  simp [readPlain, readPlainWord_word hword h, hrest]

/-! ## 4. Quoted texts -/

section Steps

variable {fuel : Nat} {more text : List Char}

theorem readDoubleQuoted_escaped (hc : c = '"' ∨ c = '\\')
    (h : readDoubleQuoted fuel false text = some (more, rest)) :
    readDoubleQuoted (fuel + 1) false ('\\' :: c :: text) = some (c :: more, rest) := by
  have hbreak : isBreak c = false := by rcases hc with rfl | rfl <;> rfl
  have hescape : readEscape (c :: text) = some (c, text) := by rcases hc with rfl | rfl <;> rfl
  have hreturn : c ≠ '\r' := by rcases hc with rfl | rfl <;> decide
  simp [readDoubleQuoted, hreturn, hbreak, hescape, h]

theorem readDoubleQuoted_plain (hc : isPrintable c = true) (hspace : c ≠ ' ')
    (hquote : c ≠ '"') (hbackslash : c ≠ '\\')
    (h : readDoubleQuoted fuel false text = some (more, rest)) :
    readDoubleQuoted (fuel + 1) false (c :: text) = some (c :: more, rest) := by
  have hgap : ¬(isBlank c = true ∨ isBreak c = true) := by
    simp [isBlank_of_isPrintable hc, isBreak_of_isPrintable hc, hspace]
  simp [readDoubleQuoted, hgap, h, hbackslash]

theorem readDoubleQuoted_spaces {n : Nat} (hgap : atGap text = false)
    (h : readDoubleQuoted fuel false text = some (more, rest)) :
    readDoubleQuoted (fuel + 1) false (' ' :: (List.replicate n ' ' ++ text))
      = some (' ' :: (List.replicate n ' ' ++ more), rest) := by
  have hread : Gap.read 0 Gap.start (' ' :: (List.replicate n ' ' ++ text))
      = some (⟨' ' :: List.replicate n ' ', [], [], false, 0⟩, text) :=
    Gap.read_spaces (n := n + 1) rfl hgap
  simp [readDoubleQuoted, isBlank, hread, Gap.text, h]

end Steps

/-- A text starts with a run of spaces, which may be empty. -/
theorem exists_spaces (cs : List Char) :
    ∃ n tail, cs = List.replicate n ' ' ++ tail ∧ tail.head? ≠ some ' ' := by
  induction cs with
  | nil => exact ⟨0, [], rfl, by simp⟩
  | cons c cs ih =>
    by_cases hc : c = ' '
    · obtain ⟨n, tail, rfl, htail⟩ := ih
      exact ⟨n + 1, tail, by rw [hc, List.replicate_succ, List.cons_append], htail⟩
    · exact ⟨0, c :: cs, rfl, by simpa using hc⟩

theorem escape_spaces (n : Nat) (tail : List Char) :
    escape (List.replicate n ' ' ++ tail) = List.replicate n ' ' ++ escape tail := by
  induction n with
  | zero => rfl
  | succ n ih =>
    rw [List.replicate_succ, List.cons_append, escape, List.flatMap_cons, ← escape, ih]
    rfl

theorem atGap_escape (hcs : ∀ c ∈ cs, isPrintable c = true)
    (hspace : cs.head? ≠ some ' ') : atGap (escape cs ++ '"' :: rest) = false := by
  cases cs with
  | nil => rfl
  | cons c cs =>
    have hc := hcs c List.mem_cons_self
    rw [escape, List.flatMap_cons]
    split
    · rfl
    · have hblank : isBlank c ≠ true := mt (isBlank_of_isPrintable hc).mp (by simpa using hspace)
      simp [atGap, hblank, isBreak_of_isPrintable hc]

/-- **A quoted text is read back**, whatever follows the closing quote. -/
theorem readDoubleQuoted_escape {fuel : Nat} (hcs : ∀ c ∈ cs, isPrintable c = true)
    (hfuel : cs.length < fuel) :
    readDoubleQuoted fuel false (escape cs ++ '"' :: rest) = some (cs, rest) := by
  induction fuel generalizing cs with
  | zero => omega
  | succ fuel ih =>
    cases cs with
    | nil => rfl
    | cons c cs =>
      obtain ⟨hc, htail⟩ := List.forall_mem_cons.mp hcs
      rw [List.length_cons] at hfuel
      by_cases hescaped : c = '"' ∨ c = '\\'
      · rw [escape, List.flatMap_cons, if_pos hescaped]
        exact readDoubleQuoted_escaped hescaped (ih htail (by omega))
      · by_cases hspace : c = ' '
        · obtain ⟨n, tail, rfl, hhead⟩ := exists_spaces cs
          rw [List.length_append] at hfuel
          have htail' := (List.forall_mem_append.mp htail).2
          have hescape : escape (' ' :: (List.replicate n ' ' ++ tail))
              = ' ' :: (List.replicate n ' ' ++ escape tail) := escape_spaces (n + 1) tail
          rw [hspace, hescape, List.cons_append, List.append_assoc]
          exact readDoubleQuoted_spaces (atGap_escape htail' hhead) (ih htail' (by omega))
        · rw [escape, List.flatMap_cons, if_neg hescaped]
          rw [not_or] at hescaped
          exact readDoubleQuoted_plain hc hspace hescaped.1 hescaped.2 (ih htail (by omega))

end RootAuthority.Yaml
