import Mathlib.Logic.Relation
import RootAuthority.Proofs.Yaml.Scalar

/-!
# Values in flow style are cut into their tokens

The lexer keeps more than the text before it: where keys may have started, and the columns of open
blocks. Of a document in flow style only little of this matters, and `Lexer.At` says what. One lemma
for each function of the lexer says where it gets from such a place. `Lexer.Reads` puts these steps
together, and follows the value from there on: `Lexer.reads_value` has a case for each kind of value.

Whether a word is a key shows at the colon after it. `Lexer.reads_key` is therefore about both.
-/

namespace RootAuthority.Yaml

open FlowValue

namespace Lexer

/-! ## 1. Places -/

/-- How far a document in flow style is read. -/
structure Place where
  /-- The number of braces and brackets that are open. -/
  depth : Nat
  /-- The tokens so far, the last first. -/
  tokens : List Token
  /-- A key may start here. -/
  keyAllowed : Bool
  rest : List Char

/-- **The lexer is at a place**, or at spaces before it. No block is open, and nothing has to be the
    start of a key. -/
structure At (s : Lexer) (p : Place) : Prop where
  rest : ∃ n, s.rest = List.replicate n ' ' ++ p.rest
  tokens : s.tokens = p.tokens
  keyAllowed : s.keyAllowed = p.keyAllowed
  depth : s.outerKeyStarts.length = p.depth
  blocks : s.blocks = []
  optional : ∀ start ∈ s.keyStart :: s.outerKeyStarts, ∀ k ∈ start, k.required = false

variable {s s' : Lexer} {p q : Place} {c : Char} {rest : List Char} {t : Token}

/-- Spaces are skipped. -/
theorem skipGap_spaces {flow allowed : Bool} (n : Nat) :
    skipGap flow allowed false (List.replicate n ' ' ++ rest) = skipGap flow allowed false rest := by
  induction n with
  | zero => rfl
  | succ n ih =>
    rw [List.replicate_succ, List.cons_append, skipGap, if_neg (by decide), if_pos (by simp), ih]

namespace At

theorem inFlow (h : s.At p) (hdepth : 0 < p.depth) : s.inFlow = true := by
  have hne : s.outerKeyStarts ≠ [] := by
    rw [← List.length_pos_iff, h.depth]
    exact hdepth
  simp [Lexer.inFlow, hne]

theorem moveTo (h : s.At p) : (s.moveTo rest).At { p with rest := rest } :=
  { h with rest := ⟨0, rfl⟩ }

theorem push (h : s.At p) : (s.push t).At { p with tokens := t :: p.tokens } :=
  { h with tokens := congrArg (t :: ·) h.tokens }

theorem allow {allowed : Bool} (h : s.At p) :
    { s with keyAllowed := allowed }.At { p with keyAllowed := allowed } :=
  { h with keyAllowed := rfl }

/-- The start of a key may be forgotten. -/
theorem forget (h : s.At p) : { s with keyStart := none }.At p :=
  { h with optional := by simpa using (List.forall_mem_cons.mp h.optional).2 }

theorem forgetKey? (h : s.At p) : s.forgetKey? = some { s with keyStart := none } := by
  have hkey : s.keyStart.any (·.required) = false := by
    cases hstart : s.keyStart with
    | none => rfl
    | some k => exact h.optional s.keyStart List.mem_cons_self k hstart
  rw [Lexer.forgetKey?, hkey, if_neg Bool.false_ne_true]

/-- Where a key is allowed, one may have started here. -/
theorem offerKey? (h : s.At p) : ∃ s₁, s.offerKey? = some s₁ ∧ s₁.At p ∧ s₁.rest = s.rest
    ∧ s₁.position = s.position
    ∧ (p.keyAllowed = true → s₁.keyStart = some ⟨s.position, p.tokens.length, false⟩) := by
  cases hkey : p.keyAllowed with
  | false =>
    have hoffered : s.offerKey? = some s := by simp [Lexer.offerKey?, h.keyAllowed, hkey]
    exact ⟨s, hoffered, h, rfl, rfl, by simp⟩
  | true =>
    have hoffered : s.offerKey?
        = some { s with keyStart := some ⟨s.position, p.tokens.length, false⟩ } := by
      simp [Lexer.offerKey?, h.keyAllowed, hkey, h.forgetKey?, h.blocks, h.tokens]
    refine ⟨_, hoffered, { h with optional := ?_ }, rfl, rfl, fun _ => rfl⟩
    simpa using (List.forall_mem_cons.mp h.optional).2

theorem closeBlocks {closes : Nat → Bool} (h : s.At p) : s.closeBlocks closes = s := by
  obtain ⟨rest, position, blocks, keyStart, outerKeyStarts, keyAllowed, tokens⟩ := s
  obtain rfl : blocks = [] := h.blocks
  simp [Lexer.closeBlocks]

/-- The start of a key that may still end in time is not forgotten. -/
theorem forgetOverdue? (h : s.At p) : ∃ s₁, s.forgetOverdue? = some s₁ ∧ s₁.At p
    ∧ s₁.rest = s.rest
    ∧ ∀ k, s.keyStart = some k → k.isOver s.position = false → s₁.keyStart = some k := by
  have hkept : s.forgetOverdue? = some { s with
      keyStart := s.keyStart.filter (!·.isOver s.position)
      outerKeyStarts := s.outerKeyStarts.map (·.filter (!·.isOver s.position)) } := by
    refine if_neg ?_
    rw [Bool.not_eq_true, List.any_eq_false]
    intro start hstart hany
    obtain ⟨k, hk, hover⟩ := (Option.any_eq_true _ _).mp hany
    simp [h.optional start hstart k hk] at hover
  refine ⟨_, hkept, { h with depth := by simpa using h.depth, optional := ?_ }, rfl, ?_⟩
  · intro start hfiltered k hk
    replace hfiltered : start
        ∈ (s.keyStart :: s.outerKeyStarts).map (·.filter (!·.isOver s.position)) := hfiltered
    obtain ⟨start, hstart, rfl⟩ := List.mem_map.mp hfiltered
    exact h.optional start hstart k (Option.mem_filter_iff.mp hk).1
  · intro k hk hover
    simp [hk, hover]

/-- Going on to a token changes at most which keys may have started. One that may still end in time
    is kept. -/
theorem toToken? (h : s.At p)
    (hstays : ∀ flow allowed, skipGap flow allowed false p.rest = (allowed, p.rest)) :
    ∃ s₁, s.toToken? = some s₁ ∧ s₁.At p ∧ s₁.rest = p.rest
      ∧ (s.rest = p.rest →
        ∀ k, s.keyStart = some k → k.isOver s.position = false → s₁.keyStart = some k) := by
  obtain ⟨n, hspaces⟩ := h.rest
  have hskip : skipGap s.inFlow s.keyAllowed false s.rest = (s.keyAllowed, p.rest) := by
    rw [hspaces, skipGap_spaces, hstays]
  have hmoved : (s.moveTo p.rest).At p := h.moveTo
  obtain ⟨s₁, hforget, hat, hrest₁, hkept⟩ := hmoved.forgetOverdue?
  refine ⟨s₁, ?_, hat, hrest₁, fun hsame => ?_⟩
  · have hforget : { s.moveTo p.rest with keyAllowed := s.keyAllowed }.forgetOverdue? = some s₁ :=
      hforget
    simp [Lexer.toToken?, hskip, hforget, hat.closeBlocks]
  · have hthere : (s.moveTo p.rest).position = s.position := by
      simp [Lexer.moveTo, hsame, Position.after]
    rwa [hthere] at hkept

end At

/-! ## 2. One token -/

/-- The reading has come to a place, and not only to spaces before it. -/
def Reaches (result : Option Lexer) (q : Place) : Prop :=
  ∃ s', result = some s' ∧ s'.At q ∧ s'.rest = q.rest

namespace At

theorem reaches_readMark (h : s.At p) (hrest : s.rest = c :: rest) :
    Reaches (some (s.readMark t)) { p with tokens := t :: p.tokens, rest := rest } := by
  rw [readMark, hrest]
  exact ⟨_, rfl, h.push.moveTo, rfl⟩

theorem readOpening? (h : s.At p) (hrest : s.rest = c :: rest) :
    Reaches (s.readOpening? t) ⟨p.depth + 1, t :: p.tokens, true, rest⟩ := by
  obtain ⟨s₁, hoffer, hat, hrest₁, -, -⟩ := h.offerKey?
  rw [Lexer.readOpening?, hoffer]
  have hinside : { s₁ with
      keyStart := none
      outerKeyStarts := s₁.keyStart :: s₁.outerKeyStarts
      keyAllowed := true }.At { p with depth := p.depth + 1, keyAllowed := true } :=
    { hat with
      keyAllowed := rfl
      depth := congrArg (· + 1) hat.depth
      optional := by simpa using hat.optional }
  exact hinside.reaches_readMark (hrest₁.trans hrest)

theorem readClosing? {depth : Nat} (h : s.At p) (hdepth : p.depth = depth + 1)
    (hrest : s.rest = c :: rest) :
    Reaches (s.readClosing? t) ⟨depth, t :: p.tokens, false, rest⟩ := by
  obtain ⟨start, outer, houter⟩ := List.exists_cons_of_length_eq_add_one (h.depth.trans hdepth)
  have hlength : outer.length = depth := by
    have := h.depth.trans hdepth
    simpa [houter] using this
  have hout : { s with keyStart := start, outerKeyStarts := outer, keyAllowed := false }.At
      { p with depth := depth, keyAllowed := false } :=
    { h with
      keyAllowed := rfl
      depth := hlength
      optional := houter ▸ (List.forall_mem_cons.mp h.optional).2 }
  rw [Lexer.readClosing?, h.forgetKey?]
  simp only [Option.bind_eq_bind, Option.bind_some, houter]
  exact hout.reaches_readMark hrest

theorem readFlowEntry? (h : s.At p) (hrest : s.rest = c :: rest) :
    Reaches s.readFlowEntry? ⟨p.depth, .flowEntry :: p.tokens, true, rest⟩ := by
  rw [Lexer.readFlowEntry?, h.forgetKey?]
  exact h.forget.allow.reaches_readMark hrest

theorem readInLine? (h : s.At p) :
    Reaches (s.readInLine? (some (t, rest))) ⟨p.depth, t :: p.tokens, false, rest⟩ := by
  obtain ⟨s₁, hoffer, hat, -, -, -⟩ := h.offerKey?
  rw [Lexer.readInLine?, hoffer]
  exact ⟨_, rfl, hat.push.allow.moveTo, rfl⟩

/-- A word is read, and that a key may have started with it is kept in mind. -/
theorem readPlain? {word : String} (h : s.At p) (hdepth : 0 < p.depth) (hword : IsWord word)
    (hends : EndsWord rest) (hrest : s.rest = word.toList ++ rest) :
    ∃ s', s.readPlain? = some s'
      ∧ s'.At ⟨p.depth, .scalar .plain word :: p.tokens, false, rest⟩ ∧ s'.rest = rest
      ∧ s'.position = s.position.after word.toList
      ∧ (p.keyAllowed = true → s'.keyStart = some ⟨s.position, p.tokens.length, false⟩) := by
  obtain ⟨s₁, hoffer, hat, hrest₁, hposition, hkey⟩ := h.offerKey?
  have hread : readPlain s₁.inFlow s₁.innerColumn s₁.rest = some (word.toList, false, rest) := by
    rw [hat.inFlow hdepth, hrest₁, hrest]
    exact readPlain_word hword.characters hends
  have hresult : s.readPlain?
      = some ({ s₁.push (.scalar .plain word) with keyAllowed := false }.moveTo rest) := by
    simp [Lexer.readPlain?, hoffer, hread]
  refine ⟨_, hresult, hat.push.allow.moveTo, rfl, ?_, hkey⟩
  simp [Lexer.moveTo, Lexer.push, hposition, hrest₁, hrest]

/-- The colon after a key of one token puts the token for keys before it. -/
theorem readValue? {k : KeyStart} {ts : List Token} (h : s.At p) (hdepth : 0 < p.depth)
    (hk : s.keyStart = some k) (htokens : p.tokens = t :: ts) (hcount : k.tokens = ts.length)
    (hrest : s.rest = c :: rest) :
    Reaches s.readValue? ⟨p.depth, .value :: t :: .key :: ts, false, rest⟩ := by
  have hinsert : s.insert k.tokens .key = { s with tokens := t :: .key :: ts } := by
    simp [Lexer.insert, h.tokens, htokens, hcount]
  have hopen : (s.insert k.tokens .key).openBlock k.position.column k.tokens .blockMappingStart
      = s.insert k.tokens .key := if_pos (.inl (h.inFlow hdepth))
  have hkeyed : { s with tokens := t :: .key :: ts, keyStart := none, keyAllowed := false }.At
      ⟨p.depth, t :: .key :: ts, false, p.rest⟩ :=
    { h.forget with
      tokens := rfl
      keyAllowed := rfl }
  rw [Lexer.readValue?, hk]
  dsimp only
  rw [hopen, hinsert]
  exact hkeyed.reaches_readMark hrest

end At

/-! ## 3. Steps -/

/-- One token is read. -/
def Step (s s' : Lexer) : Prop :=
  ∃ s₁, s.toToken? = some s₁ ∧ s₁.rest ≠ [] ∧ s₁.readToken? = some s'
    ∧ s'.rest.length < s.rest.length

theorem run?_of_step {fuel : Nat} (h : Step s s') : run? (fuel + 1) s = run? fuel s' := by
  obtain ⟨s₁, hto, hrest, hread, -⟩ := h
  simp [run?, hto, hrest, hread]

/-- Enough fuel for a state is enough for what comes after it. -/
theorem run?_of_steps {fuel : Nat} (h : Relation.ReflTransGen Step s s')
    (hfuel : s.rest.length < fuel) :
    ∃ fuel', s'.rest.length < fuel' ∧ run? fuel s = run? fuel' s' := by
  induction h using Relation.ReflTransGen.head_induction_on generalizing fuel with
  | refl => exact ⟨fuel, hfuel, rfl⟩
  | head hstep _ ih =>
    obtain ⟨fuel, rfl⟩ : ∃ n, fuel = n + 1 := ⟨fuel - 1, by omega⟩
    obtain ⟨-, -, -, -, hshorter⟩ := id hstep
    rw [run?_of_step hstep]
    exact ih (by omega)

/-- **Tokens are read from one place to another.** -/
def Reads (p q : Place) : Prop := ∀ s, s.At p → ∃ s', Relation.ReflTransGen Step s s' ∧ s'.At q

theorem Reads.trans {r : Place} (h : Reads p q) (h' : Reads q r) : Reads p r := by
  intro s hs
  obtain ⟨s₁, hsteps, hat⟩ := h s hs
  obtain ⟨s₂, hsteps', hat'⟩ := h' s₁ hat
  exact ⟨s₂, hsteps.trans hsteps', hat'⟩

theorem Reads.refl (p : Place) : Reads p p := fun s h => ⟨s, .refl, h⟩

/-- A space before a token does not count. -/
theorem reads_space {depth : Nat} {ts : List Token} {keyAllowed : Bool} :
    Reads ⟨depth, ts, keyAllowed, ' ' :: rest⟩ ⟨depth, ts, keyAllowed, rest⟩ := by
  intro s h
  obtain ⟨n, hrest⟩ := h.rest
  refine ⟨s, .refl, { h with rest := ⟨n + 1, ?_⟩ }⟩
  rw [hrest, List.replicate_succ', List.append_assoc, List.singleton_append]

/-- The character starts a token. Which one depends neither on the column nor on what follows. -/
def isOpener (c : Char) : Bool :=
  !(isBlank c || isBreak c || ['#', '%', '-', '.', '?', ':'].contains c)

theorem isOpener_iff : isOpener c = true ↔
    isBlank c = false ∧ isBreak c = false ∧ c ∉ ['#', '%', '-', '.', '?', ':'] := by
  simp [isOpener, and_assoc]

theorem skipGap_of_isOpener (hc : isOpener c = true) (flow allowed : Bool) :
    skipGap flow allowed false (c :: rest) = (allowed, c :: rest) := by
  obtain ⟨hblank, hbreak, hnot⟩ := isOpener_iff.mp hc
  obtain ⟨hspace, htab⟩ : c ≠ ' ' ∧ c ≠ '\t' := by simpa [isBlank] using hblank
  simp [skipGap, hbreak, hspace, htab, List.ne_of_not_mem_cons hnot]

theorem readToken?_of_isOpener (hc : isOpener c = true) (hrest : s.rest = c :: rest) :
    s.readToken? = s.readByFirst? c rest := by
  obtain ⟨-, -, hnot⟩ := isOpener_iff.mp hc
  simp only [List.mem_cons, List.not_mem_nil, not_or, or_false] at hnot
  obtain ⟨-, hpercent, hhyphen, hdot, hquestion, hcolon⟩ := hnot
  have hmark : atDocumentMark (c :: rest) = false := by
    unfold atDocumentMark
    split <;> simp_all
  simp [readToken?, hrest, hmark, hpercent, hhyphen, hquestion, hcolon]

/-- Before a token there is nothing to do but to skip spaces. -/
theorem At.step (h : s.At p) (hc : isOpener c = true) (hrest : p.rest = c :: rest) :
    ∃ s₁ : Lexer, s₁.At p ∧ s₁.rest = c :: rest ∧ ∀ s', s₁.readByFirst? c rest = some s' →
      s'.rest.length < p.rest.length → Step s s' := by
  obtain ⟨s₁, hto, hat, hrest₁, -⟩ := h.toToken? (hrest ▸ skipGap_of_isOpener hc)
  have hthere := hrest₁.trans hrest
  obtain ⟨n, hspaces⟩ := h.rest
  refine ⟨s₁, hat, hthere, fun s' hread hshorter => ⟨s₁, hto, ?_, ?_, ?_⟩⟩
  · simp [hthere]
  · rw [readToken?_of_isOpener hc hthere, hread]
  · rw [hspaces, List.length_append]
    omega

theorem reads_token (hc : isOpener c = true) (hrest : p.rest = c :: rest)
    (hshorter : q.rest.length < p.rest.length)
    (hread : ∀ s : Lexer, s.At p → s.rest = c :: rest → Reaches (s.readByFirst? c rest) q) :
    Reads p q := by
  intro s h
  obtain ⟨s₁, hat, hrest₁, hstep⟩ := h.step hc hrest
  obtain ⟨s', hreach, hat', hrest'⟩ := hread s₁ hat hrest₁
  exact ⟨s', .single (hstep s' hreach (hrest' ▸ hshorter)), hat'⟩

variable {depth : Nat} {ts : List Token} {keyAllowed : Bool} {word text : String}

theorem reads_opening (hc : isOpener c = true)
    (hfirst : ∀ s : Lexer, s.readByFirst? c rest = s.readOpening? t) :
    Reads ⟨depth, ts, keyAllowed, c :: rest⟩ ⟨depth + 1, t :: ts, true, rest⟩ :=
  reads_token hc rfl (by simp) fun s h hrest => hfirst s ▸ h.readOpening? hrest

theorem reads_closing (hc : isOpener c = true)
    (hfirst : ∀ s : Lexer, s.readByFirst? c rest = s.readClosing? t) :
    Reads ⟨depth + 1, ts, keyAllowed, c :: rest⟩ ⟨depth, t :: ts, false, rest⟩ :=
  reads_token hc rfl (by simp) fun s h hrest => hfirst s ▸ h.readClosing? rfl hrest

theorem reads_comma :
    Reads ⟨depth, ts, keyAllowed, ',' :: rest⟩ ⟨depth, .flowEntry :: ts, true, rest⟩ :=
  reads_token rfl rfl (by simp) fun _ h hrest => h.readFlowEntry? hrest

theorem reads_quoted (htext : IsPrintable text) :
    Reads ⟨depth, ts, keyAllowed, '"' :: (escape text.toList ++ '"' :: rest)⟩
      ⟨depth, .scalar .doubleQuoted text :: ts, false, rest⟩ := by
  have hread : quoted? .doubleQuoted readDoubleQuoted (escape text.toList ++ '"' :: rest)
      = some (.scalar .doubleQuoted text, rest) := by
    have hlength := length_le_length_escape text.toList
    rw [quoted?, readDoubleQuoted_escape htext (by rw [List.length_append]; omega)]
    simp
  refine reads_token rfl rfl (by simp; omega) fun s h _ => ?_
  have hfirst : s.readByFirst? '"' (escape text.toList ++ '"' :: rest) = s.readInLine? _ := rfl
  rw [hfirst, hread]
  exact h.readInLine?

/-! ### Words and keys -/

theorem isOpener_of_isWordCharacter (hc : isWordCharacter c = true) : isOpener c = true := by
  have hother (d : Char) (hd : isWordCharacter d = false) : c ≠ d := ne_of_isWordCharacter hc hd
  simp [isOpener_iff, not_gap_of_isWordCharacter hc, hother '#' rfl, hother '%' rfl, hother '-' rfl,
    hother '.' rfl, hother '?' rfl, hother ':' rfl]

theorem startsPlain_of_isWordCharacter {flow : Bool} (hc : isWordCharacter c = true) :
    startsPlain flow (c :: rest) = true := by
  have hother (d : Char) (hd : isWordCharacter d = false) : c ≠ d := ne_of_isWordCharacter hc hd
  simp [startsPlain, not_gap_of_isWordCharacter hc, not_isFlowIndicator_of_isWordCharacter hc,
    hother '-' rfl, hother '?' rfl, hother ':' rfl, hother '#' rfl, hother '&' rfl, hother '*' rfl,
    hother '!' rfl, hother '|' rfl, hother '>' rfl, hother '\'' rfl, hother '"' rfl, hother '%' rfl,
    hother '@' rfl, hother '\x60' rfl]

/-- Where a word starts, nothing but a plain scalar does. -/
theorem readByFirst?_of_isWordCharacter (hc : isWordCharacter c = true) (hflow : s.inFlow = true)
    (hrest : s.rest = c :: rest) : s.readByFirst? c rest = s.readPlain? := by
  have hplain : startsPlain s.inFlow s.rest = true := by
    rw [hrest, startsPlain_of_isWordCharacter hc]
  unfold readByFirst?
  split
  all_goals first
    | exact absurd hc (by decide)
    | rw [if_neg (by simp [hflow]), if_neg (by simp [hflow]), if_pos hplain]

theorem At.step_word (h : s.At ⟨depth + 1, ts, keyAllowed, word.toList ++ rest⟩)
    (hword : IsWord word) (hends : EndsWord rest) :
    ∃ s' start, Step s s' ∧ s'.At ⟨depth + 1, .scalar .plain word :: ts, false, rest⟩
      ∧ s'.rest = rest ∧ s'.position = Position.after start word.toList
      ∧ (keyAllowed = true → s'.keyStart = some ⟨start, ts.length, false⟩) := by
  obtain ⟨c, cs, hcs⟩ := List.exists_cons_of_ne_nil (mt String.toList_eq_nil_iff.mp hword.nonempty)
  have hc : isWordCharacter c = true := hword.characters c (hcs ▸ List.mem_cons_self)
  have hwhole : word.toList ++ rest = c :: (cs ++ rest) := by rw [hcs, List.cons_append]
  obtain ⟨s₁, hat, hrest₁, hstep⟩ := h.step (isOpener_of_isWordCharacter hc) hwhole
  obtain ⟨s', hread, hat', hrest', hposition, hkey⟩ :=
    hat.readPlain? (Nat.succ_pos depth) hword hends (hrest₁.trans hwhole.symm)
  refine ⟨s', s₁.position, hstep s' ?_ ?_, hat', hrest', hposition, hkey⟩
  · rw [readByFirst?_of_isWordCharacter hc (hat.inFlow (Nat.succ_pos depth)) hrest₁, hread]
  · rw [hrest', hwhole, List.length_cons, List.length_append]
    omega

theorem reads_word (hword : IsWord word) (hends : EndsWord rest) :
    Reads ⟨depth + 1, ts, keyAllowed, word.toList ++ rest⟩
      ⟨depth + 1, .scalar .plain word :: ts, false, rest⟩ := by
  intro s h
  obtain ⟨s', -, hstep, hat, -⟩ := h.step_word hword hends
  exact ⟨s', .single hstep, hat⟩

/-- A word stays on its line. -/
theorem after_word {cs : List Char} {start : Position} (hcs : ∀ c ∈ cs, isWordCharacter c = true) :
    start.after cs = ⟨start.index + cs.length, start.line, start.column + cs.length⟩ := by
  induction cs generalizing start with
  | nil => rfl
  | cons c cs ih =>
    obtain ⟨hc, hcs⟩ := List.forall_mem_cons.mp hcs
    have hbreak := (not_gap_of_isWordCharacter hc).2
    have hreturn : c ≠ '\r' := ne_of_isWordCharacter hc rfl
    rw [Position.after.eq_3 _ _ _ (by simp [hreturn]), hbreak, if_neg Bool.false_ne_true, ih hcs,
      List.length_cons]
    simp only [Position.mk.injEq, true_and]
    omega

/-- **A key and the colon after it.** A word is short enough for a key, so where it started is still
    known at the colon. -/
theorem reads_key (hword : IsWord word) :
    Reads ⟨depth + 1, ts, true, word.toList ++ ':' :: ' ' :: rest⟩
      ⟨depth + 1, .value :: .scalar .plain word :: .key :: ts, false, ' ' :: rest⟩ := by
  intro s h
  obtain ⟨s₁, start, hstep, hat, hrest, hposition, hkey⟩ := h.step_word hword .colon
  obtain ⟨s₂, hto, hat₂, hrest₂, hkept⟩ := hat.toToken? fun _ _ => rfl
  have hstart : s₂.keyStart = some ⟨start, ts.length, false⟩ := by
    refine hkept hrest _ (hkey rfl) ?_
    have := hword.short
    rw [hposition, after_word hword.characters]
    simpa [KeyStart.isOver, String.length_toList] using this
  obtain ⟨s₃, hvalue, hat₃, hrest₃⟩ := hat₂.readValue? (Nat.succ_pos depth) hstart rfl rfl hrest₂
  have hread : s₂.readToken? = s₂.readValue? := by
    simp [readToken?, hrest₂, hat₂.inFlow (Nat.succ_pos depth), atDocumentMark]
  refine ⟨s₃, (Relation.ReflTransGen.single hstep).tail ⟨s₂, hto, ?_, hread.trans hvalue, ?_⟩, hat₃⟩
  · simp [hrest₂]
  · rw [hrest₃, hrest]
    simp

/-! ## 4. Values -/

theorem reads_separator {first : Bool} (hallowed : first = true → keyAllowed = true) :
    Reads ⟨depth, ts, keyAllowed, separator first ++ rest⟩
      ⟨depth, (separatorTokens first).reverse ++ ts, true, rest⟩ := by
  cases first with
  | true =>
    rw [hallowed rfl]
    exact .refl _
  | false => exact reads_comma.trans reads_space

theorem endsWord_itemChars (items : List FlowValue) :
    EndsWord (itemChars false items ++ ']' :: rest) := by
  cases items <;> exact .indicator rfl

theorem endsWord_entryChars (entries : List (String × FlowValue)) :
    EndsWord (entryChars false entries ++ '}' :: rest) := by
  cases entries <;> exact .indicator rfl

mutual

/-- **A value inside braces or brackets is cut into its tokens.** -/
theorem reads_value : (f : FlowValue) → f.IsWritable → {depth : Nat} → {ts : List Token} →
    {keyAllowed : Bool} → {rest : List Char} → EndsWord rest →
    Reads ⟨depth + 1, ts, keyAllowed, f.chars ++ rest⟩
      ⟨depth + 1, f.tokens.reverse ++ ts, false, rest⟩
  | .word _, h, _, _, _, _, hends => reads_word h hends
  | .quoted _, h, _, _, _, _, _ => by
    simp only [chars, List.cons_append, List.append_assoc, List.nil_append]
    exact reads_quoted h
  | .sequence items, h, _, _, _, _, _ => by
    simp only [chars, FlowValue.tokens, List.cons_append, List.append_assoc, List.nil_append,
      List.reverse_cons, List.reverse_append, List.reverse_nil]
    exact (reads_opening rfl fun _ => rfl).trans (reads_items items h fun _ => rfl)
  | .mapping entries, h, _, _, _, _, _ => by
    simp only [chars, FlowValue.tokens, List.cons_append, List.append_assoc, List.nil_append,
      List.reverse_cons, List.reverse_append, List.reverse_nil]
    exact (reads_opening rfl fun _ => rfl).trans (reads_entries entries h fun _ => rfl)

/-- The items of a sequence with the closing bracket. -/
theorem reads_items : (items : List FlowValue) → ItemsWritable items → {depth : Nat} →
    {ts : List Token} → {keyAllowed : Bool} → {rest : List Char} → {first : Bool} →
    (first = true → keyAllowed = true) →
    Reads ⟨depth + 1, ts, keyAllowed, itemChars first items ++ ']' :: rest⟩
      ⟨depth, .flowSequenceEnd :: ((itemTokens first items).reverse ++ ts), false, rest⟩
  | [], _, _, _, _, _, _, _ => reads_closing rfl fun _ => rfl
  | item :: items, h, _, _, _, _, _, hallowed => by
    simp only [itemChars, itemTokens, List.reverse_append, List.append_assoc]
    exact (reads_separator hallowed).trans
      ((reads_value item h.1 (endsWord_itemChars items)).trans (reads_items items h.2 (by simp)))

/-- The entries of a mapping with the closing brace. -/
theorem reads_entries : (entries : List (String × FlowValue)) → EntriesWritable entries →
    {depth : Nat} → {ts : List Token} → {keyAllowed : Bool} → {rest : List Char} → {first : Bool} →
    (first = true → keyAllowed = true) →
    Reads ⟨depth + 1, ts, keyAllowed, entryChars first entries ++ '}' :: rest⟩
      ⟨depth, .flowMappingEnd :: ((entryTokens first entries).reverse ++ ts), false, rest⟩
  | [], _, _, _, _, _, _, _ => reads_closing rfl fun _ => rfl
  | (key, value) :: entries, h, _, _, _, _, _, hallowed => by
    simp only [entryChars, entryTokens, List.reverse_append, List.reverse_cons, List.append_assoc,
      List.cons_append, List.nil_append]
    exact (reads_separator hallowed).trans ((reads_key h.1).trans (reads_space.trans
      ((reads_value value h.2.1 (endsWord_entryChars entries)).trans
        (reads_entries entries h.2.2 (by simp)))))

end

/-! ## 5. Documents -/

theorem at_start : (start ('{' :: rest)).At ⟨0, [], true, '{' :: rest⟩ := by
  have hstart : start ('{' :: rest) = ⟨'{' :: rest, Position.start, [], none, [], true, []⟩ := rfl
  rw [hstart]
  exact ⟨⟨0, rfl⟩, rfl, rfl, rfl, rfl, by simp⟩

/-- At the end of the text the tokens are complete. -/
theorem run?_of_at {fuel : Nat} (h : s.At ⟨depth, ts, keyAllowed, []⟩) :
    run? (fuel + 1) s = some ts.reverse := by
  obtain ⟨s₁, hto, hat, hrest, -⟩ := h.toToken? fun _ _ => rfl
  have htokens : s₁.tokens = ts := hat.tokens
  simp [run?, hto, hrest, finish?, hat.closeBlocks, hat.forgetKey?, htokens]

end Lexer

/-- **A mapping in flow style is cut into its tokens.** -/
theorem tokens?_text {entries : List (String × FlowValue)} (h : EntriesWritable entries) :
    tokens? (FlowValue.mapping entries).text = some (FlowValue.mapping entries).tokens := by
  have hreadable : (FlowValue.mapping entries).chars.all isReadable = true :=
    List.all_eq_true.mpr (isReadable_chars (.mapping entries) h)
  have hreads : Lexer.Reads ⟨0, [], true, (FlowValue.mapping entries).chars⟩
      ⟨0, (FlowValue.mapping entries).tokens.reverse, false, []⟩ := by
    simp only [chars, FlowValue.tokens, List.reverse_cons, List.reverse_append, List.append_assoc]
    exact (Lexer.reads_opening rfl fun _ => rfl).trans (Lexer.reads_entries entries h fun _ => rfl)
  obtain ⟨s, hsteps, hat⟩ := hreads _ Lexer.at_start
  obtain ⟨fuel, hfuel, hrun⟩ := Lexer.run?_of_steps hsteps (Nat.lt_succ_self _)
  obtain ⟨fuel, rfl⟩ : ∃ n, fuel = n + 1 := ⟨fuel - 1, by omega⟩
  rw [Lexer.run?_of_at hat, List.reverse_reverse] at hrun
  rw [tokens?, text, String.toList_ofList, if_pos hreadable]
  exact hrun

end RootAuthority.Yaml
