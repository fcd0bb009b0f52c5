import RootAuthority.Proofs.Yaml.Lexing

/-!
# Values in flow style are read back

The tokens of a value make its node again (`Cursor.readNode_tokens`), so a document that holds a
mapping in flow style and nothing else is read as its node (`read?_text`).

Reading a value takes as much fuel as it has tokens.
-/

namespace RootAuthority.Yaml

open FlowValue

/-- The token starts a value: it is none of those that stand between values. -/
def isValueStart (t : Token) : Bool :=
  !([Token.value, .key, .flowEntry, .flowSequenceEnd, .flowMappingEnd].contains t)

theorem FlowValue.exists_tokens_eq_cons (f : FlowValue) :
    ∃ t ts, f.tokens = t :: ts ∧ isValueStart t = true := by
  cases f with
  | word text => exact ⟨_, [], rfl, rfl⟩
  | quoted text => exact ⟨_, [], rfl, rfl⟩
  | sequence items => exact ⟨_, _, rfl, rfl⟩
  | mapping entries => exact ⟨_, _, rfl, rfl⟩

theorem FlowValue.length_tokens_pos (f : FlowValue) : 0 < f.tokens.length := by
  obtain ⟨t, ts, htokens, -⟩ := f.exists_tokens_eq_cons
  simp [htokens]

theorem ne_of_isValueStart {t t' : Token} (h : isValueStart t = true)
    (h' : isValueStart t' = false) : t ≠ t' := by
  rintro rfl
  exact absurd h (Bool.eq_false_iff.mp h')

namespace Cursor

variable {c c' c'' : Cursor} {rest ts : List Token} {t : Token} {fuel : Nat} {key : String}
  {first : Bool} {value : Node}

@[simp] theorem tokens_moveTo : (c.moveTo ts).tokens = ts := rfl

@[simp] theorem moveTo_moveTo : (c.moveTo ts).moveTo rest = c.moveTo rest := rfl

/-! ## 1. Items and entries -/

theorem readFlowItems_item {items : List Node} (f : FlowValue)
    (hvalue : readNode fuel false false (c.moveTo (f.tokens ++ ts)) = some (value, c'))
    (hitems : readFlowItems fuel false c' = some (items, c'')) :
    readFlowItems (fuel + 1) first (c.moveTo (separatorTokens first ++ (f.tokens ++ ts)))
      = some (value :: items, c'') := by
  obtain ⟨t, tail, htokens, ht⟩ := f.exists_tokens_eq_cons
  have hkey : t ≠ .key := ne_of_isValueStart ht rfl
  have hend : t ≠ .flowSequenceEnd := ne_of_isValueStart ht rfl
  rw [htokens, List.cons_append] at hvalue ⊢
  rw [readFlowItems]
  cases first <;> simp [separatorTokens, skipComma?, hkey, hend, hvalue, hitems]

theorem readFlowEntries_entry {entries : List (Node × Node)} (f : FlowValue)
    (hvalue : readNode fuel false false (c.moveTo (f.tokens ++ ts)) = some (value, c'))
    (hentries : readFlowEntries fuel false c' = some (entries, c'')) :
    readFlowEntries (fuel + 1) first
        (c.moveTo (separatorTokens first ++
          .key :: .scalar .plain key :: .value :: (f.tokens ++ ts)))
      = some ((.scalar none none .plain key, value) :: entries, c'') := by
  obtain ⟨t, tail, htokens, ht⟩ := f.exists_tokens_eq_cons
  have hcomma : t ≠ .flowEntry := ne_of_isValueStart ht rfl
  have hend : t ≠ .flowMappingEnd := ne_of_isValueStart ht rfl
  rw [htokens, List.cons_append] at hvalue ⊢
  have hkey : readNode fuel false false
      (c.moveTo (.scalar .plain key :: .value :: t :: (tail ++ ts)))
      = some (.scalar none none .plain key, c.moveTo (.value :: t :: (tail ++ ts))) := by
    cases fuel with
    | zero => cases hvalue
    | succ fuel => rfl
  rw [readFlowEntries]
  cases first <;> simp [separatorTokens, skipComma?, readUnless, readValue, isAt, hkey, hcomma, hend,
    hvalue, hentries]

/-! ## 2. Values -/

mutual

/-- **The tokens of a value make its node**, whatever follows them. -/
theorem readNode_tokens : (f : FlowValue) → {fuel : Nat} → {block unindented : Bool} →
    {rest : List Token} → f.tokens.length ≤ fuel →
    readNode fuel block unindented (c.moveTo (f.tokens ++ rest)) = some (f.node, c.moveTo rest)
  | .word text, fuel + 1, _, _, _, _ => rfl
  | .quoted text, fuel + 1, _, _, _, _ => rfl
  | .sequence items, fuel + 1, _, _, rest, h => by
    simp only [FlowValue.tokens, List.length_cons, List.length_append, List.length_nil] at h
    have hitems : readFlowItems fuel true
        (c.moveTo (itemTokens true items ++ .flowSequenceEnd :: rest))
        = some (itemNodes items, c.moveTo rest) :=
      readFlowItems_tokens items (by omega)
    simp [FlowValue.tokens, FlowValue.node, readNode, readProperties?, readAnchor, readTag?, hitems]
  | .mapping entries, fuel + 1, _, _, rest, h => by
    simp only [FlowValue.tokens, List.length_cons, List.length_append, List.length_nil] at h
    have hentries : readFlowEntries fuel true
        (c.moveTo (entryTokens true entries ++ .flowMappingEnd :: rest))
        = some (entryNodes entries, c.moveTo rest) :=
      readFlowEntries_tokens entries (by omega)
    simp [FlowValue.tokens, FlowValue.node, readNode, readProperties?, readAnchor, readTag?, hentries]

/-- The items of a sequence with the closing bracket. -/
theorem readFlowItems_tokens : (items : List FlowValue) → {fuel : Nat} → {first : Bool} →
    {rest : List Token} → (itemTokens first items).length < fuel →
    readFlowItems fuel first (c.moveTo (itemTokens first items ++ .flowSequenceEnd :: rest))
      = some (itemNodes items, c.moveTo rest)
  | [], fuel + 1, _, _, _ => rfl
  | item :: items, fuel + 1, first, rest, h => by
    have hpositive := item.length_tokens_pos
    simp only [itemTokens, List.length_append] at h
    simp only [itemTokens, List.append_assoc]
    exact readFlowItems_item item (readNode_tokens item (by omega))
      (readFlowItems_tokens items (by omega))

/-- The entries of a mapping with the closing brace. -/
theorem readFlowEntries_tokens : (entries : List (String × FlowValue)) → {fuel : Nat} →
    {first : Bool} → {rest : List Token} → (entryTokens first entries).length < fuel →
    readFlowEntries fuel first (c.moveTo (entryTokens first entries ++ .flowMappingEnd :: rest))
      = some (entryNodes entries, c.moveTo rest)
  | [], fuel + 1, _, _, _ => rfl
  | (key, value) :: entries, fuel + 1, first, rest, h => by
    simp only [entryTokens, List.length_append, List.length_cons] at h
    simp only [entryTokens, List.append_assoc, List.cons_append]
    exact readFlowEntries_entry value (readNode_tokens value (by omega))
      (readFlowEntries_tokens entries (by omega))

end

end Cursor

/-! ## 3. Documents -/

theorem document?_tokens (entries : List (String × FlowValue)) :
    document? (FlowValue.mapping entries).tokens = some (FlowValue.mapping entries).node := by
  have hcontent : readContent Directives.empty.allHandles (FlowValue.mapping entries).tokens
      = some ((FlowValue.mapping entries).node, []) := by
    have hread (c : Cursor) : Cursor.readNode (2 * (FlowValue.mapping entries).tokens.length + 2)
        true false (c.moveTo ((FlowValue.mapping entries).tokens ++ []))
        = some ((FlowValue.mapping entries).node, c.moveTo []) :=
      Cursor.readNode_tokens _ (by omega)
    rw [List.append_nil] at hread
    have hstart : Cursor.readNode (2 * (FlowValue.mapping entries).tokens.length + 2) true false
        ⟨(FlowValue.mapping entries).tokens, Directives.empty.allHandles, []⟩
        = some ((FlowValue.mapping entries).node, ⟨[], Directives.empty.allHandles, []⟩) :=
      hread ⟨[], Directives.empty.allHandles, []⟩
    rw [readContent, hstart, Option.map_some]
  have htokens : (FlowValue.mapping entries).tokens
      = .flowMappingStart :: (entryTokens true entries ++ [.flowMappingEnd]) := by
    rw [FlowValue.tokens]
  rw [htokens] at hcontent ⊢
  simp [document?, Directives.isDirective, hcontent]

/-- **A document that holds a mapping in flow style is read as its node.** -/
theorem read?_text {entries : List (String × FlowValue)} (h : EntriesWritable entries) :
    read? (FlowValue.mapping entries).text = some (FlowValue.mapping entries).node := by
  rw [read?, tokens?_text h, Option.bind_some, document?_tokens]

end RootAuthority.Yaml
