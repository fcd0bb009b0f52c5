import RootAuthority.Proofs.Certificate.AttributeText
import RootAuthority.Proofs.Text.Separated

/-!
# Names that are told apart by their text

The text of a name does not tell where a value ends: a value may itself hold a separator and what
looks like a further attribute. In the text of a plain name (`Name.IsPlain`) neither kinds nor
values hold an equals sign, and kinds hold no blank. Every equals sign then ends a kind, the last
blank in front of it begins that kind, and the character in front of the blank tells whether a new
level begins (`Name.between_inj`, `Name.rowText_injective`).

* `Name.text_eq_iff`: two plain names have the same text exactly if the same is shown of them, level
  by level.
* `Name.eq_of_fields`: if the tags of their values agree too, they are the same name.
-/

namespace RootAuthority

open Der

namespace Name

/-! ## 1. Levels in a row -/

section Row

variable {α : Type}

/-- The items of a level, with a mark at the first. -/
def marked : List α → List (Bool × α)
  | [] => []
  | a :: level => (true, a) :: level.map (false, ·)

/-- The items of all levels. -/
def row (levels : List (List α)) : List (Bool × α) := levels.flatMap marked

/-- The items in front of the first mark, and the levels that begin at the marks. -/
def regroup : List (Bool × α) → List α × List (List α)
  | [] => ([], [])
  | (true, a) :: items => ([], (a :: (regroup items).1) :: (regroup items).2)
  | (false, a) :: items => (a :: (regroup items).1, (regroup items).2)

theorem regroup_unmarked (items : List (Bool × α)) : ∀ level : List α,
    regroup (level.map (false, ·) ++ items) = (level ++ (regroup items).1, (regroup items).2)
  | [] => rfl
  | a :: level => by
      rw [List.map_cons, List.cons_append, regroup, regroup_unmarked items level]
      rfl

/-- **The marks tell the levels.** -/
theorem regroup_row : ∀ {levels : List (List α)}, (∀ level ∈ levels, level ≠ []) →
    regroup (row levels) = ([], levels)
  | [], _ => rfl
  | [] :: levels, h => (h [] List.mem_cons_self rfl).elim
  | (a :: level) :: levels, h => by
      have ih := regroup_row fun l hl => h l (List.mem_cons_of_mem _ hl)
      rw [row, List.flatMap_cons, ← row, marked, List.cons_append, regroup, regroup_unmarked, ih,
        List.append_nil]

theorem row_injective {levels levels' : List (List α)} (h : ∀ level ∈ levels, level ≠ [])
    (h' : ∀ level ∈ levels', level ≠ []) (heq : row levels = row levels') : levels = levels' := by
  have hregroup := congrArg regroup heq
  rw [regroup_row h, regroup_row h'] at hregroup
  exact (Prod.mk.inj hregroup).2

theorem mem_of_mem_row {levels : List (List α)} {p : Bool × α} (h : p ∈ row levels) :
    ∃ level ∈ levels, p.2 ∈ level := by
  obtain ⟨level, hm, hp⟩ := List.mem_flatMap.mp h
  refine ⟨level, hm, ?_⟩
  cases level with
  | nil => cases hp
  | cons a level =>
    rcases List.mem_cons.mp hp with rfl | hp
    · exact List.mem_cons_self
    · obtain ⟨b, hb, rfl⟩ := List.mem_map.mp hp
      exact List.mem_cons_of_mem a hb

end Row

/-! ## 2. The text of a row -/

/-- The separator in front of a field, up to its last blank. -/
def separatorFront (opens : Bool) : List Char := if opens then [','] else [' ', '+']

/-- The separator in front of a field that begins a level, or does not. -/
def separator (opens : Bool) : List Char := separatorFront opens ++ [' ']

/-- The characters of a row, with a separator in front of each field. -/
def rowText (items : List (Bool × Field)) : List Char :=
  items.flatMap fun p => separator p.1 ++ p.2.chars

theorem rowText_cons (opens : Bool) (f : Field) (items : List (Bool × Field)) :
    rowText ((opens, f) :: items)
      = (separator opens ++ f.kindChars) ++ '=' :: (f.text.toList ++ rowText items) := by
  simp [rowText, Field.chars]

theorem equals_not_mem_front {opens : Bool} {f : Field} (h : f.IsPlain) :
    '=' ∉ separator opens ++ f.kindChars :=
  List.not_mem_append (by cases opens <;> decide) (not_mem_kindText h.written).1

/-- The last character tells which separator it is. -/
theorem separatorFront_inj {text text' : List Char} {opens opens' : Bool}
    (h : text ++ separatorFront opens = text' ++ separatorFront opens') :
    text = text' ∧ opens = opens' := by
  have hlast (text : List Char) (opens : Bool) :
      (text ++ separatorFront opens).getLast? = some (if opens then ',' else '+') := by
    cases opens <;> simp [separatorFront]
  have hmark : (if opens then ',' else '+') = if opens' then ',' else '+' :=
    Option.some.inj ((hlast text opens).symm.trans (h ▸ hlast text' opens'))
  have hopens : opens = opens' := by
    revert hmark
    cases opens <;> cases opens' <;> decide
  subst hopens
  exact ⟨List.append_cancel_right h, rfl⟩

/-- **What stands between two equals signs** splits into the contents of one field, a separator and
    the kind of the next. -/
theorem between_inj {value value' : List Char} {opens opens' : Bool} {f f' : Field}
    (hf : f.IsPlain) (hf' : f'.IsPlain)
    (h : value ++ (separator opens ++ f.kindChars) = value' ++ (separator opens' ++ f'.kindChars)) :
    value = value' ∧ opens = opens' ∧ f.kindChars = f'.kindChars := by
  have hsplit : (value ++ separatorFront opens) ++ ' ' :: f.kindChars
      = (value' ++ separatorFront opens') ++ ' ' :: f'.kindChars := by
    simpa [separator] using h
  obtain ⟨hfront, hkind⟩ := Text.separator_append_inj (not_mem_kindText hf.written).2
    (not_mem_kindText hf'.written).2 hsplit
  obtain ⟨hvalue, hopens⟩ := separatorFront_inj hfront
  exact ⟨hvalue, hopens, hkind⟩

theorem equals_mem_rowText (p : Bool × Field) (items : List (Bool × Field)) :
    '=' ∈ rowText (p :: items) := by
  rw [rowText_cons]
  exact List.mem_append_right _ List.mem_cons_self

/-- **The contents of a field end** where the text of the following fields begins. -/
theorem value_rowText_inj {value value' : List Char} (hvalue : '=' ∉ value)
    (hvalue' : '=' ∉ value') : ∀ {items items' : List (Bool × Field)},
    (∀ p ∈ items, p.2.IsPlain) → (∀ p ∈ items', p.2.IsPlain) →
    value ++ rowText items = value' ++ rowText items' →
    value = value' ∧ rowText items = rowText items'
  | [], [], _, _, h => by simpa [rowText] using h
  | [], p :: items, _, _, h => by
      refine (hvalue ?_).elim
      rw [rowText, List.flatMap_nil, List.append_nil] at h
      rw [h]
      exact List.mem_append_right value' (equals_mem_rowText p items)
  | p :: items, [], _, _, h => by
      refine (hvalue' ?_).elim
      rw [rowText.eq_def [], List.flatMap_nil, List.append_nil] at h
      rw [← h]
      exact List.mem_append_right value (equals_mem_rowText p items)
  | (opens, f) :: items, (opens', f') :: items', hitems, hitems', h => by
      have hf : f.IsPlain := hitems _ List.mem_cons_self
      have hf' : f'.IsPlain := hitems' _ List.mem_cons_self
      rw [rowText_cons, rowText_cons, ← List.append_assoc value, ← List.append_assoc value'] at h
      -- the first equals sign on each side is the one behind the next kind
      obtain ⟨hbetween, hrest⟩ := Text.append_separator_inj
        (List.not_mem_append hvalue (equals_not_mem_front hf))
        (List.not_mem_append hvalue' (equals_not_mem_front hf')) h
      obtain ⟨rfl, rfl, hkind⟩ := between_inj hf hf' hbetween
      exact ⟨rfl, by rw [rowText_cons, rowText_cons, hkind, hrest]⟩

/-- **The text of a row of plain fields tells the fields** and where levels begin. -/
theorem rowText_injective : ∀ {items items' : List (Bool × Field)},
    (∀ p ∈ items, p.2.IsPlain) → (∀ p ∈ items', p.2.IsPlain) →
    rowText items = rowText items' → items = items'
  | [], [], _, _, _ => rfl
  | [], p :: items, _, _, h => absurd (equals_mem_rowText p items) (h ▸ List.not_mem_nil)
  | p :: items, [], _, _, h => absurd (equals_mem_rowText p items) (h ▸ List.not_mem_nil)
  | (opens, f) :: items, (opens', f') :: items', hitems, hitems', h => by
      obtain ⟨hf, htail⟩ := List.forall_mem_cons.mp hitems
      obtain ⟨hf', htail'⟩ := List.forall_mem_cons.mp hitems'
      rw [rowText_cons, rowText_cons] at h
      obtain ⟨hfront, hback⟩ := Text.append_separator_inj (equals_not_mem_front hf)
        (equals_not_mem_front hf') h
      -- nothing stands in front of the first separator
      obtain ⟨-, rfl, hkind⟩ := between_inj hf hf' (congrArg ([] ++ ·) hfront)
      obtain ⟨hvalue, hrest⟩ := value_rowText_inj hf.text hf'.text htail htail' hback
      have hfield : f = f' := hf.ext hf' hkind hvalue
      rw [hfield, rowText_injective htail htail' hrest]

/-! ## 3. Names -/

/-- What is shown of a name, level by level. -/
def fields (n : Name) : List (List Field) := n.map fun level => level.map Attribute.field

/-- The tags of the values of a name, level by level. -/
def tags (n : Name) : List (List Tag) := n.map fun level => level.map fun a => a.value.tag

/-- **A plain name**: each of its attributes is plain. -/
def IsPlain (n : Name) : Prop := ∀ level ∈ n, ∀ a ∈ level, a.IsPlain

/-- The characters of one level. -/
def levelChars (level : List Field) : List Char :=
  [' ', '+', ' '].intercalate (level.map Field.chars)

/-- The characters of all levels in one line. -/
def lineChars (levels : List (List Field)) : List Char :=
  [',', ' '].intercalate (levels.map levelChars)

theorem mapM_eq_some_map {α β : Type} {f : α → Option β} {g : α → β} : ∀ {items : List α},
    (∀ a ∈ items, f a = some (g a)) → items.mapM f = some (items.map g)
  | [], _ => rfl
  | a :: items, h => by
      have ih := mapM_eq_some_map fun b hb => h b (List.mem_cons_of_mem a hb)
      rw [List.mapM_cons, h a List.mem_cons_self, ih]
      rfl

/-- **The text of a plain name** is made of what is shown of its attributes. -/
theorem toList_text {n : Name} (h : n.IsPlain) : n.text.toList = lineChars n.fields := by
  have hattribute : ∀ level ∈ n, ∀ a ∈ level,
      (valueText? a.value).map (fun v => kindText a.kind ++ "=" ++ v)
        = some (String.ofList a.field.chars) := by
    intro level hm a ha
    rw [(h level hm a ha).valueText?, Option.map_some, Option.some.injEq]
    exact String.toList_inj.mp (by simp [Field.chars, Field.kindChars, Attribute.field])
  have hlevel : ∀ level ∈ n, levelText? level
      = some (" + ".intercalate (level.map fun a => String.ofList a.field.chars)) := by
    intro level hm
    rw [levelText?, mapM_eq_some_map (hattribute level hm), Option.map_some]
  rw [text, mapM_eq_some_map hlevel, String.toList_intercalate, lineChars, fields, List.map_map,
    List.map_map]
  refine congrArg [',', ' '].intercalate (List.map_congr_left fun level _ => ?_)
  simp [String.toList_intercalate, levelChars, Function.comp_def]

theorem rowText_marked {level : List Field} (h : level ≠ []) :
    rowText (marked level) = separator true ++ levelChars level := by
  obtain ⟨f, level, rfl⟩ := List.exists_cons_of_ne_nil h
  rw [marked, rowText, List.flatMap_cons, List.flatMap_map, levelChars, List.map_cons,
    Text.intercalate_cons_eq, List.flatMap_map, List.append_assoc]
  rfl

/-- A line with a separator in front of it is the text of the row of its fields. -/
theorem rowText_row {levels : List (List Field)} (hne : levels ≠ [])
    (h : ∀ level ∈ levels, level ≠ []) :
    rowText (row levels) = separator true ++ lineChars levels := by
  have hrow : rowText (row levels)
      = levels.flatMap fun level => separator true ++ levelChars level := by
    rw [rowText, row, List.flatMap_assoc]
    exact List.flatMap_congr fun level hm => rowText_marked (h level hm)
  obtain ⟨level, levels, rfl⟩ := List.exists_cons_of_ne_nil hne
  rw [hrow, lineChars, List.map_cons, Text.intercalate_cons_eq, List.flatMap_map, List.flatMap_cons,
    List.append_assoc]
  rfl

/-- None of the levels is empty, and all their fields are plain. -/
def ArePlain (levels : List (List Field)) : Prop :=
  ∀ level ∈ levels, level ≠ [] ∧ ∀ f ∈ level, f.IsPlain

theorem ArePlain.row {levels : List (List Field)} (h : ArePlain levels) :
    ∀ p ∈ row levels, p.2.IsPlain := by
  intro p hp
  obtain ⟨level, hm, hf⟩ := mem_of_mem_row hp
  exact (h level hm).2 p.2 hf

theorem ArePlain.equals_mem_lineChars {level : List Field} {levels : List (List Field)}
    (h : ArePlain (level :: levels)) : '=' ∈ lineChars (level :: levels) := by
  obtain ⟨f, fs, rfl⟩ := List.exists_cons_of_ne_nil (h level List.mem_cons_self).1
  simp [lineChars, levelChars, Text.intercalate_cons_eq, Field.chars]

/-- **The line of plain levels tells the levels.** -/
theorem lineChars_injective : ∀ {levels levels' : List (List Field)},
    ArePlain levels → ArePlain levels' → lineChars levels = lineChars levels' → levels = levels'
  | [], [], _, _, _ => rfl
  | [], level :: levels, _, h', heq => absurd h'.equals_mem_lineChars (heq ▸ List.not_mem_nil)
  | level :: levels, [], h, _, heq => absurd h.equals_mem_lineChars (heq ▸ List.not_mem_nil)
  | level :: levels, level' :: levels', h, h', heq => by
      have hne : ∀ l ∈ level :: levels, l ≠ [] := fun l hl => (h l hl).1
      have hne' : ∀ l ∈ level' :: levels', l ≠ [] := fun l hl => (h' l hl).1
      have hrow : row (level :: levels) = row (level' :: levels') := by
        apply rowText_injective h.row h'.row
        rw [rowText_row (List.cons_ne_nil _ _) hne, rowText_row (List.cons_ne_nil _ _) hne', heq]
      exact row_injective hne hne' hrow

theorem IsPlain.fields {n : Name} (h : n.IsPlain) (hlevels : ∀ level ∈ n, level ≠ []) :
    ArePlain n.fields := by
  intro level hm
  obtain ⟨attributes, hattributes, rfl⟩ := List.mem_map.mp hm
  refine ⟨by simpa using hlevels attributes hattributes, ?_⟩
  intro f hf
  obtain ⟨a, ha, rfl⟩ := List.mem_map.mp hf
  exact (h attributes hattributes a ha).field

/-- **Plain names without empty levels have the same text** exactly if the same is shown of them,
    level by level. -/
theorem text_eq_iff {n m : Name} (hn : n.IsPlain) (hm : m.IsPlain)
    (hlevels : ∀ level ∈ n, level ≠ []) (hlevels' : ∀ level ∈ m, level ≠ []) :
    n.text = m.text ↔ n.fields = m.fields := by
  rw [← String.toList_inj, toList_text hn, toList_text hm]
  constructor
  · exact lineChars_injective (hn.fields hlevels) (hm.fields hlevels')
  · exact congrArg lineChars

/-- Lists whose items are known by two of their properties. -/
theorem eq_of_map_eq {α β γ : Type} {f : α → β} {g : α → γ} : ∀ {items items' : List α},
    (∀ a ∈ items, ∀ a' ∈ items', f a = f a' → g a = g a' → a = a') →
    items.map f = items'.map f → items.map g = items'.map g → items = items'
  | [], [], _, _, _ => rfl
  | [], a :: items, _, hf, _ => by cases hf
  | a :: items, [], _, hf, _ => by cases hf
  | a :: items, a' :: items', h, hf, hg => by
      rw [List.map_cons, List.map_cons, List.cons.injEq] at hf hg
      have ih := eq_of_map_eq (fun b hb b' hb' => h b (List.mem_cons_of_mem a hb) b'
        (List.mem_cons_of_mem a' hb')) hf.2 hg.2
      rw [h a List.mem_cons_self a' List.mem_cons_self hf.1 hg.1, ih]

/-- **With its tags, a plain name is known by what is shown of it.** -/
theorem eq_of_fields {n m : Name} (hn : n.IsPlain) (hm : m.IsPlain) (htags : n.tags = m.tags)
    (hfields : n.fields = m.fields) : n = m := by
  refine eq_of_map_eq ?_ hfields htags
  intro level hlevel level' hlevel' hf ht
  refine eq_of_map_eq ?_ hf ht
  intro a ha a' ha' hfield htag
  exact Attribute.eq_of_field (hn level hlevel a ha) (hm level' hlevel' a' ha') htag hfield

end Name

end RootAuthority
