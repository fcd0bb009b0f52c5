import RootAuthority.Yaml.Grammar

/-!
# Values in flow style

A tree of words, quoted texts, sequences and mappings, and three things that it stands for: the
characters that spell it out in brackets and braces (`FlowValue.chars`), the tokens they are cut into
(`FlowValue.tokens`), and the node these make (`FlowValue.node`). That reading goes from the first to the
second and from there to the third is shown in `Proofs.Yaml.Lexing` and `Proofs.Yaml.Reading`.

A comma and a space stand between two items, a colon and a space between a key and its value.
-/

namespace RootAuthority.Yaml

/-- A value of a document in flow style. -/
inductive FlowValue
  /-- A word without quotes. -/
  | word (text : String)
  | quoted (text : String)
  | sequence (items : List FlowValue)
  | mapping (entries : List (String × FlowValue))

namespace FlowValue

/-! ## 1. Characters -/

/-- A text as it stands between double quotes. -/
def escape (cs : List Char) : List Char :=
  cs.flatMap fun c => if c = '"' ∨ c = '\\' then ['\\', c] else [c]

theorem length_le_length_escape (cs : List Char) : cs.length ≤ (escape cs).length := by
  induction cs with
  | nil => exact Nat.le_refl 0
  | cons c cs ih =>
    rw [escape, List.flatMap_cons, ← escape, List.length_cons, List.length_append]
    split <;> simp only [List.length_cons, List.length_nil] <;> omega

/-- What stands before an item. -/
def separator (first : Bool) : List Char := if first then [] else [',', ' ']

mutual

/-- **How a value is spelled.** -/
def chars : FlowValue → List Char
  | word text => text.toList
  | quoted text => '"' :: (escape text.toList ++ ['"'])
  | sequence items => '[' :: (itemChars true items ++ [']'])
  | mapping entries => '{' :: (entryChars true entries ++ ['}'])

/-- How the items of a sequence are spelled. -/
def itemChars (first : Bool) : List FlowValue → List Char
  | [] => []
  | item :: items => separator first ++ chars item ++ itemChars false items

/-- How the entries of a mapping are spelled. -/
def entryChars (first : Bool) : List (String × FlowValue) → List Char
  | [] => []
  | (key, value) :: entries =>
    separator first ++ key.toList ++ ':' :: ' ' :: (chars value ++ entryChars false entries)

end

/-- The text of a document that holds the value and nothing else. -/
def text (f : FlowValue) : String := String.ofList f.chars

/-! ## 2. Tokens -/

/-- The token before an item. -/
def separatorTokens (first : Bool) : List Token := if first then [] else [.flowEntry]

mutual

/-- **The tokens of a value.** -/
def tokens : FlowValue → List Token
  | word text => [.scalar .plain text]
  | quoted text => [.scalar .doubleQuoted text]
  | sequence items => .flowSequenceStart :: (itemTokens true items ++ [.flowSequenceEnd])
  | mapping entries => .flowMappingStart :: (entryTokens true entries ++ [.flowMappingEnd])

/-- The tokens of the items of a sequence. -/
def itemTokens (first : Bool) : List FlowValue → List Token
  | [] => []
  | item :: items => separatorTokens first ++ tokens item ++ itemTokens false items

/-- The tokens of the entries of a mapping. -/
def entryTokens (first : Bool) : List (String × FlowValue) → List Token
  | [] => []
  | (key, value) :: entries =>
    separatorTokens first ++ .key :: .scalar .plain key :: .value ::
      (tokens value ++ entryTokens false entries)

end

/-! ## 3. Nodes -/

mutual

/-- **The node that a value makes.** -/
def node : FlowValue → Node
  | word text => .scalar none none .plain text
  | quoted text => .scalar none none .doubleQuoted text
  | sequence items => .sequence none (itemNodes items)
  | mapping entries => .mapping none (entryNodes entries)

/-- The nodes of the items of a sequence. -/
def itemNodes : List FlowValue → List Node
  | [] => []
  | item :: items => node item :: itemNodes items

/-- The nodes of the entries of a mapping. -/
def entryNodes : List (String × FlowValue) → List (Node × Node)
  | [] => []
  | (key, value) :: entries => (.scalar none none .plain key, node value) :: entryNodes entries

end

theorem itemNodes_eq_map (items : List FlowValue) : itemNodes items = items.map node := by
  induction items with
  | nil => rfl
  | cons item items ih => rw [itemNodes, ih, List.map_cons]

theorem entryNodes_eq_map (entries : List (String × FlowValue)) : entryNodes entries
    = entries.map fun e => (.scalar none none .plain e.1, e.2.node) := by
  induction entries with
  | nil => rfl
  | cons entry entries ih => rw [entryNodes, ih, List.map_cons]

/-- What is written out is no reference, so it is what it stands for. -/
theorem follow_node (labels : List (Nat × Node)) (f : FlowValue) :
    f.node.follow labels = f.node := by
  cases f <;> simp only [node] <;> rfl

/-! ## 4. What can be written -/

/-- The character may stand in a word. -/
def isWordCharacter (c : Char) : Bool := c.isAlphanum || c = '_'

/-- The text is a word, which is short enough for a key. -/
structure IsWord (text : String) : Prop where
  nonempty : text ≠ ""
  short : text.length ≤ 1024
  characters : ∀ c ∈ text.toList, isWordCharacter c = true

/-- The character is a printable one of ASCII. -/
def isPrintable (c : Char) : Bool := 0x20 ≤ c.toNat && c.toNat ≤ 0x7e

/-- The text has only such characters. -/
def IsPrintable (text : String) : Prop := ∀ c ∈ text.toList, isPrintable c = true

instance (text : String) : Decidable (IsPrintable text) :=
  List.decidableBAll (isPrintable · = true) text.toList

mutual

/-- **The value can be written**: its words are words, and its texts are printable. -/
def IsWritable : FlowValue → Prop
  | word text => IsWord text
  | quoted text => IsPrintable text
  | sequence items => ItemsWritable items
  | mapping entries => EntriesWritable entries

/-- All items can be written. -/
def ItemsWritable : List FlowValue → Prop
  | [] => True
  | item :: items => IsWritable item ∧ ItemsWritable items

/-- All keys and values can be written. -/
def EntriesWritable : List (String × FlowValue) → Prop
  | [] => True
  | (key, value) :: entries => IsWord key ∧ IsWritable value ∧ EntriesWritable entries

end

theorem itemsWritable_iff {items : List FlowValue} :
    ItemsWritable items ↔ ∀ item ∈ items, item.IsWritable := by
  induction items with
  | nil => simp [ItemsWritable]
  | cons item items ih => rw [ItemsWritable, ih, List.forall_mem_cons]

theorem entriesWritable_iff {entries : List (String × FlowValue)} :
    EntriesWritable entries ↔ ∀ e ∈ entries, IsWord e.1 ∧ e.2.IsWritable := by
  induction entries with
  | nil => simp [EntriesWritable]
  | cons entry entries ih => rw [EntriesWritable, ih, List.forall_mem_cons, and_assoc]

/-! ## 5. Every character may occur in a document -/

variable {c d : Char}

theorem toNat_of_isWordCharacter (h : isWordCharacter c = true) :
    0x30 ≤ c.toNat ∧ c.toNat ≤ 0x7a := by
  rcases Bool.or_eq_true_iff.mp h with h | h
  · rcases Bool.or_eq_true_iff.mp (h : (c.isAlpha || c.isDigit) = true) with h | h
    · rcases Bool.or_eq_true_iff.mp (h : (c.isUpper || c.isLower) = true) with h | h
      · have hrange : 0x41 ≤ c.toNat ∧ c.toNat ≤ 0x5a := of_decide_eq_true h
        omega
      · obtain ⟨hlow, hhigh⟩ := Bool.and_eq_true_iff.mp h
        have hrange : 0x61 ≤ c.toNat ∧ c.toNat ≤ 0x7a :=
          ⟨of_decide_eq_true hlow, of_decide_eq_true hhigh⟩
        omega
    · obtain ⟨hlow, hhigh⟩ := Bool.and_eq_true_iff.mp h
      have hrange : 0x30 ≤ c.toNat ∧ c.toNat ≤ 0x39 :=
        ⟨of_decide_eq_true hlow, of_decide_eq_true hhigh⟩
      omega
  · obtain rfl := of_decide_eq_true h
    decide

/-- A word has none of the characters that mean something outside of words. -/
theorem ne_of_isWordCharacter (hc : isWordCharacter c = true) (hd : isWordCharacter d = false) :
    c ≠ d := by
  rintro rfl
  exact absurd hc (Bool.eq_false_iff.mp hd)

theorem isPrintable_iff : isPrintable c = true ↔ 0x20 ≤ c.toNat ∧ c.toNat ≤ 0x7e := by
  rw [isPrintable, Bool.and_eq_true, decide_eq_true_eq, decide_eq_true_eq]

theorem isPrintable_of_isWordCharacter (h : isWordCharacter c = true) : isPrintable c = true := by
  have := toNat_of_isWordCharacter h
  exact isPrintable_iff.mpr (by omega)

theorem isReadable_of_isPrintable (h : isPrintable c = true) : isReadable c = true := by
  simp [isReadable, isPrintable_iff.mp h]

theorem isReadable_escape {cs : List Char} (h : ∀ c ∈ cs, isPrintable c = true) :
    ∀ c ∈ escape cs, isReadable c = true := by
  intro c hc
  obtain ⟨d, hd, hcd⟩ := List.mem_flatMap.mp hc
  split at hcd
  · rcases (by simpa using hcd : c = '\\' ∨ c = d) with rfl | rfl
    · decide
    · exact isReadable_of_isPrintable (h _ hd)
  · obtain rfl := List.mem_singleton.mp hcd
    exact isReadable_of_isPrintable (h _ hd)

theorem isReadable_separator {first : Bool} (h : c ∈ separator first) : isReadable c = true := by
  cases first with
  | true => cases h
  | false => rcases (by simpa [separator] using h : c = ',' ∨ c = ' ') with rfl | rfl <;> decide

theorem isReadable_word {text : String} (h : IsWord text) :
    ∀ c ∈ text.toList, isReadable c = true := by
  intro c hc
  exact isReadable_of_isPrintable (isPrintable_of_isWordCharacter (h.characters c hc))

mutual

/-- **All characters of a value that can be written may occur in a document.** -/
theorem isReadable_chars : (f : FlowValue) → f.IsWritable → ∀ c ∈ f.chars, isReadable c = true
  | word _, h => isReadable_word h
  | quoted text, h => by
    simp only [chars, List.forall_mem_cons, List.forall_mem_append, List.not_mem_nil]
    exact ⟨by decide, isReadable_escape h, by decide, by simp⟩
  | sequence items, h => by
    simp only [chars, List.forall_mem_cons, List.forall_mem_append]
    exact ⟨by decide, isReadable_itemChars true items h, by decide, by simp⟩
  | mapping entries, h => by
    simp only [chars, List.forall_mem_cons, List.forall_mem_append]
    exact ⟨by decide, isReadable_entryChars true entries h, by decide, by simp⟩

theorem isReadable_itemChars (first : Bool) : (items : List FlowValue) → ItemsWritable items →
    ∀ c ∈ itemChars first items, isReadable c = true
  | [], _ => by simp [itemChars]
  | item :: items, h => by
    simp only [itemChars, List.forall_mem_append]
    exact ⟨⟨fun _ => isReadable_separator, isReadable_chars item h.1⟩,
      isReadable_itemChars false items h.2⟩

theorem isReadable_entryChars (first : Bool) : (entries : List (String × FlowValue)) →
    EntriesWritable entries → ∀ c ∈ entryChars first entries, isReadable c = true
  | [], _ => by simp [entryChars]
  | (key, value) :: entries, h => by
    simp only [entryChars, List.forall_mem_cons, List.forall_mem_append]
    exact ⟨⟨fun _ => isReadable_separator, isReadable_word h.1⟩, by decide, by decide,
      isReadable_chars value h.2.1, isReadable_entryChars false entries h.2.2⟩

end

end FlowValue

end RootAuthority.Yaml
