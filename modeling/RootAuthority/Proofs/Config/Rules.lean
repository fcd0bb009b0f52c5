import RootAuthority.Config.Document
import RootAuthority.Mint

/-!
# What the rules of a configuration come to

The check goes through the rules in order and reports the first broken one. What it lets pass are
the configurations that keep all of them (`Config.IsUsable`), and nothing else.

* `Config.violation?_eq_none_iff`: the check and the rules agree.
* `Config.parse_eq_ok_iff`: which configurations a text gives.
* `Config.parse_eq_invalid_iff`: which texts are refused for a broken rule.
-/

namespace RootAuthority.Config

variable {name text : String} {c : Config} {broken : Violation}

/-! ## 1. Names -/

/-- The text can name a file in the storage directory, as far as it is checked. -/
structure IsFileName (name : String) : Prop where
  nonempty : name ≠ ""
  slash : '/' ∉ name.toList
  backslash : '\\' ∉ name.toList

theorem fileNameViolation?_eq_none_iff : fileNameViolation? name = none ↔ IsFileName name := by
  unfold fileNameViolation?
  split
  · next hempty =>
    have hname : name = "" := by simpa using hempty
    constructor
    · intro h
      cases h
    · intro h
      exact absurd hname h.nonempty
  · next hempty =>
    have hname : name ≠ "" := by simpa using hempty
    split
    · next hany =>
      constructor
      · intro h
        cases h
      · intro h
        obtain ⟨c, hc, hsep⟩ := List.any_eq_true.mp hany
        rcases of_decide_eq_true hsep with rfl | rfl
        · exact absurd hc h.slash
        · exact absurd hc h.backslash
    · next hany =>
      have hnone (c : Char) (hc : c = '/' ∨ c = '\\') : c ∉ name.toList := fun hm =>
        hany (List.any_eq_true.mpr ⟨c, hm, decide_eq_true hc⟩)
      exact iff_of_true rfl ⟨hname, hnone _ (.inl rfl), hnone _ (.inr rfl)⟩

/-- **A DNS name that passes** is ASCII, is not empty and has no blanks. -/
theorem isDnsName_iff : isDnsName name = true ↔
    isAscii name = true ∧ name ≠ "" ∧ ∀ c ∈ name.toList, Text.isBlank c = false := by
  simp only [isDnsName, isAscii, Bool.and_eq_true, List.all_eq_true, Bool.not_eq_true',
    decide_eq_true_eq, String.isEmpty_eq_false_iff]
  constructor
  · rintro ⟨hempty, hall⟩
    exact ⟨fun c hc => (hall c hc).1, hempty, fun c hc => (hall c hc).2⟩
  · rintro ⟨hascii, hempty, hblank⟩
    exact ⟨hempty, fun c hc => ⟨hascii c hc, hblank c hc⟩⟩

/-! ## 2. Configurations -/

/-- **The rules of a configuration.** -/
structure IsUsable (c : Config) : Prop where
  namespaceSegment : Text.allBlank c.storage.namespaceSegment = false
  certificateFile : IsFileName c.storage.certificateFile
  keyFile : IsFileName c.storage.keyFile
  filesApart : c.storage.certificateFile ≠ c.storage.keyFile
  commonName : Text.allBlank c.subject.commonName = false
  dnsNames : ∀ name ∈ c.subject.dnsNames, isDnsName name = true

/-- **The check passes exactly the usable configurations.** -/
theorem violation?_eq_none_iff : c.violation? = none ↔ c.IsUsable := by
  have hnames : (c.subject.dnsNames.find? (!isDnsName ·)).map Violation.dnsName = none ↔
      ∀ name ∈ c.subject.dnsNames, isDnsName name = true := by
    simp [List.find?_eq_none]
  unfold violation?
  constructor
  · intro h
    split at h
    · cases h
    · next hnamespace =>
      split at h
      · cases h
      · next hcertificate =>
        split at h
        · cases h
        · next hkey =>
          split at h
          · cases h
          · next hapart =>
            split at h
            · cases h
            · next hcommon =>
              exact
                { namespaceSegment := Bool.eq_false_iff.mpr hnamespace
                  certificateFile := fileNameViolation?_eq_none_iff.mp hcertificate
                  keyFile := fileNameViolation?_eq_none_iff.mp hkey
                  filesApart := hapart
                  commonName := Bool.eq_false_iff.mpr hcommon
                  dnsNames := hnames.mp h }
  · intro h
    simp only [h.namespaceSegment, fileNameViolation?_eq_none_iff.mpr h.certificateFile,
      fileNameViolation?_eq_none_iff.mpr h.keyFile, if_neg h.filesApart, h.commonName,
      Bool.false_eq_true, if_false]
    exact hnames.mpr h.dnsNames

/-! ## 3. Texts -/

/-- **Which configuration a text gives**: the one that it says, if that is usable. -/
theorem parse_eq_ok_iff :
    parse text = .ok c ↔ (Yaml.read? text).bind ofDocument? = some c ∧ c.IsUsable := by
  rw [← violation?_eq_none_iff]
  unfold parse
  cases (Yaml.read? text).bind ofDocument? with
  | none => simp
  | some said =>
    dsimp only
    cases hcheck : said.violation? with
    | none =>
      simp only [Except.ok.injEq, Option.some.injEq]
      constructor
      · rintro rfl
        exact ⟨rfl, hcheck⟩
      · rintro ⟨rfl, -⟩
        rfl
    | some broken =>
      simp only [reduceCtorEq, Option.some.injEq, false_iff]
      rintro ⟨rfl, hnone⟩
      rw [hcheck] at hnone
      cases hnone

/-- **Which texts are refused for a broken rule**: those that say a configuration which breaks
    it. -/
theorem parse_eq_invalid_iff : parse text = .error (.invalid broken) ↔
    ∃ c, (Yaml.read? text).bind ofDocument? = some c ∧ c.violation? = some broken := by
  unfold parse
  cases (Yaml.read? text).bind ofDocument? with
  | none => simp
  | some said =>
    dsimp only
    cases hcheck : said.violation? with
    | none => simp [hcheck]
    | some broken' => simp [hcheck]

/-- A text that says a configuration which is not usable is refused for a rule that it breaks. -/
theorem parse_of_not_isUsable (hdocument : (Yaml.read? text).bind ofDocument? = some c)
    (h : ¬c.IsUsable) : ∃ broken, parse text = .error (.invalid broken) := by
  obtain ⟨broken, hbroken⟩ := Option.ne_none_iff_exists'.mp (mt violation?_eq_none_iff.mp h)
  exact ⟨broken, parse_eq_invalid_iff.mpr ⟨c, hdocument, hbroken⟩⟩

end RootAuthority.Config
