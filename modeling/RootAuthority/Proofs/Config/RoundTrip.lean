import RootAuthority.Proofs.Config.Rules
import RootAuthority.Proofs.Config.Scalar
import RootAuthority.Proofs.Yaml.Reading

/-!
# Configurations are read as they are written

A configuration is written in flow style with the settings of each section in some order. Settings
that have their defaults may be left out (`Layout.Spells`).

* `Config.storageOf?_section`, `Config.subjectOf?_section`: a section gives back what it was written
  for.
* `Config.parse_text`: so does the document, if the configuration is usable; else it is refused
  for a rule that the configuration breaks.
-/

namespace RootAuthority

open Yaml (FlowValue Node)

namespace Config

/-! ## 1. Settings -/

/-- The settings of a configuration. Two of them are sections. -/
inductive Setting
  | version
  | storage
  | subject
  | verifyKeyBinding
deriving DecidableEq, Repr

/-- The settings of the section on storage. -/
inductive StorageSetting
  | namespaceSegment
  | directory
  | certificateFile
  | keyFile
deriving DecidableEq, Repr

/-- The settings of the section on the holder of the certificate. -/
inductive SubjectSetting
  | commonName
  | organization
  | dnsNames
deriving DecidableEq, Repr

namespace Setting

/-- The key of a setting. -/
def key : Setting → String
  | version => "version"
  | storage => "storage"
  | subject => "subject"
  | verifyKeyBinding => "verify_key_binding"

/-- The configuration leaves the setting at its default. -/
def IsDefault (c : Config) : Setting → Prop
  | version => c.version = Config.default.version
  | storage => c.storage = Config.default.storage
  | subject => c.subject = Config.default.subject
  | verifyKeyBinding => c.verifyKeyBinding = Config.default.verifyKeyBinding

instance (c : Config) : (setting : Setting) → Decidable (setting.IsDefault c)
  | version => inferInstanceAs (Decidable (c.version = _))
  | storage => inferInstanceAs (Decidable (c.storage = _))
  | subject => inferInstanceAs (Decidable (c.subject = _))
  | verifyKeyBinding => inferInstanceAs (Decidable (c.verifyKeyBinding = _))

end Setting

namespace StorageSetting

/-- The key of a setting. -/
def key : StorageSetting → String
  | namespaceSegment => "namespace"
  | directory => "directory"
  | certificateFile => "cert_file"
  | keyFile => "key_file"

/-- How a setting is written. -/
def value (s : StorageSettings) : StorageSetting → FlowValue
  | namespaceSegment => .quoted s.namespaceSegment
  | directory => s.directory.elim (.word "null") .quoted
  | certificateFile => .quoted s.certificateFile
  | keyFile => .quoted s.keyFile

/-- The storage settings leave this one at its default. -/
def IsDefault (s : StorageSettings) : StorageSetting → Prop
  | namespaceSegment => s.namespaceSegment = StorageSettings.default.namespaceSegment
  | directory => s.directory = StorageSettings.default.directory
  | certificateFile => s.certificateFile = StorageSettings.default.certificateFile
  | keyFile => s.keyFile = StorageSettings.default.keyFile

instance (s : StorageSettings) : (setting : StorageSetting) → Decidable (setting.IsDefault s)
  | namespaceSegment => inferInstanceAs (Decidable (s.namespaceSegment = _))
  | directory => inferInstanceAs (Decidable (s.directory = _))
  | certificateFile => inferInstanceAs (Decidable (s.certificateFile = _))
  | keyFile => inferInstanceAs (Decidable (s.keyFile = _))

end StorageSetting

namespace SubjectSetting

/-- The key of a setting. -/
def key : SubjectSetting → String
  | commonName => "common_name"
  | organization => "organization"
  | dnsNames => "dns_names"

/-- How a setting is written. -/
def value (i : Identity) : SubjectSetting → FlowValue
  | commonName => .quoted i.commonName
  | organization => .quoted i.organization
  | dnsNames => .sequence (i.dnsNames.map .quoted)

/-- The identity leaves the setting at its default. -/
def IsDefault (i : Identity) : SubjectSetting → Prop
  | commonName => i.commonName = Identity.default.commonName
  | organization => i.organization = Identity.default.organization
  | dnsNames => i.dnsNames = Identity.default.dnsNames

instance (i : Identity) : (setting : SubjectSetting) → Decidable (setting.IsDefault i)
  | commonName => inferInstanceAs (Decidable (i.commonName = _))
  | organization => inferInstanceAs (Decidable (i.organization = _))
  | dnsNames => inferInstanceAs (Decidable (i.dnsNames = _))

end SubjectSetting

/-! ## 2. Documents -/

/-- The entries of a section: the settings that are written, in order. -/
def entries {ι : Type} (key : ι → String) (value : ι → FlowValue) (written : List ι) :
    List (String × FlowValue) :=
  written.map fun setting => (key setting, value setting)

/-- Which settings a document writes, in which order. -/
structure Layout where
  settings : List Setting
  storage : List StorageSetting
  subject : List SubjectSetting

namespace Layout

/-- How a setting is written. -/
def value (l : Layout) (c : Config) : Setting → FlowValue
  | .version => .word (toString c.version)
  | .storage => .mapping (entries StorageSetting.key (StorageSetting.value c.storage) l.storage)
  | .subject => .mapping (entries SubjectSetting.key (SubjectSetting.value c.subject) l.subject)
  | .verifyKeyBinding => .word (if c.verifyKeyBinding then "true" else "false")

/-- **The document** that writes a configuration. -/
def text (l : Layout) (c : Config) : String :=
  (FlowValue.mapping (entries Setting.key (l.value c) l.settings)).text

/-- **The document says the configuration**: no setting is written twice, and what is left out has
    its default. -/
structure Spells (l : Layout) (c : Config) : Prop where
  settings : l.settings.Nodup
  storage : l.storage.Nodup
  subject : l.subject.Nodup
  settingsLeftOut : ∀ setting ∉ l.settings, setting.IsDefault c
  storageLeftOut : ∀ setting ∉ l.storage, setting.IsDefault c.storage
  subjectLeftOut : ∀ setting ∉ l.subject, setting.IsDefault c.subject

end Layout

/-- **The configuration can be written**: its version fits 32 bits, and all its texts are printable
    ASCII. -/
structure IsPrintable (c : Config) : Prop where
  version : c.version < 0x1_0000_0000
  namespaceSegment : FlowValue.IsPrintable c.storage.namespaceSegment
  directory : ∀ dir ∈ c.storage.directory, FlowValue.IsPrintable dir
  certificateFile : FlowValue.IsPrintable c.storage.certificateFile
  keyFile : FlowValue.IsPrintable c.storage.keyFile
  commonName : FlowValue.IsPrintable c.subject.commonName
  organization : FlowValue.IsPrintable c.subject.organization
  dnsNames : ∀ name ∈ c.subject.dnsNames, FlowValue.IsPrintable name

/-! ## 3. Sections are read back -/

section Section_

variable {ι α : Type} {key : ι → String} {value : ι → FlowValue} {written : List ι}
  {isDefault : ι → Prop} {labels : Labels}

theorem settings?_entries : settings? labels (FlowValue.mapping (entries key value written)).node
    = some (written.map fun setting => (key setting, (value setting).node)) := by
  have hentry (setting : ι) :
      (textOf? ((Node.scalar none none .plain (key setting)).follow labels)).map
        (fun name => (name, (value setting).node.follow labels))
      = some (key setting, (value setting).node) := by
    rw [FlowValue.follow_node]
    rfl
  rw [settings?, FlowValue.follow_node, FlowValue.node, FlowValue.entryNodes_eq_map, entries,
    List.map_map]
  dsimp only
  rw [List.mapM_map]
  simp only [Function.comp_def, hentry]
  exact List.mapM_pure

/-- **A setting is read back**: from the document, or as its default if it is left out. -/
theorem setting?_written (hkey : Function.Injective key) (value : ι → FlowValue)
    (hwritten : written.Nodup) (hleftOut : ∀ setting ∉ written, isDefault setting) (setting : ι)
    (name : String) (hname : key setting = name) {default v : α} (read : Node → Option α)
    (hread : read (value setting).node = some v) (hdefault : isDefault setting → v = default) :
    setting? (written.map fun setting => (key setting, (value setting).node)) name default read
      = some v := by
  subst hname
  classical
  have hfilter : (written.map fun setting => (key setting, (value setting).node)).filter
        (·.1 = key setting)
      = (List.replicate (written.count setting) setting).map
        fun setting => (key setting, (value setting).node) := by
    rw [List.filter_map, ← List.filter_eq]
    simp only [Function.comp_def, hkey.eq_iff]
  rw [setting?, hfilter]
  by_cases hmem : setting ∈ written
  · simp [List.Nodup.count hwritten, hmem, hread]
  · simp [List.count_eq_zero_of_not_mem hmem, hdefault (hleftOut setting hmem)]

end Section_

/-! ### Storage and subject -/

theorem StorageSetting.key_injective : Function.Injective StorageSetting.key := by
  intro a b
  cases a <;> cases b <;> decide

theorem SubjectSetting.key_injective : Function.Injective SubjectSetting.key := by
  intro a b
  cases a <;> cases b <;> decide

theorem Setting.key_injective : Function.Injective Setting.key := by
  intro a b
  cases a <;> cases b <;> decide

variable {labels : Labels}

theorem optionalTextOf?_directory (dir : Option Path) :
    optionalTextOf? (dir.elim (.word "null") FlowValue.quoted).node = some dir := by
  cases dir <;> rfl

theorem textsOf?_quoted (names : List String) :
    textsOf? labels (FlowValue.sequence (names.map .quoted)).node = some names := by
  have hitem (name : String) :
      textOf? ((FlowValue.quoted name).node.follow labels) = some name := by
    rw [FlowValue.follow_node]
    rfl
  rw [FlowValue.node, FlowValue.itemNodes_eq_map, textsOf?, List.map_map, List.mapM_map]
  simp only [Function.comp_def, hitem]
  exact List.mapM_pure.trans (congrArg some (List.map_id names))

/-- **The section on storage is read back.** -/
theorem storageOf?_section {s : StorageSettings} {written : List StorageSetting}
    (hwritten : written.Nodup) (hleftOut : ∀ setting ∉ written, setting.IsDefault s) :
    storageOf? labels
      (FlowValue.mapping (entries StorageSetting.key (StorageSetting.value s) written)).node
      = some s := by
  have hnamespace := setting?_written StorageSetting.key_injective (StorageSetting.value s) hwritten
    hleftOut .namespaceSegment "namespace" rfl textOf? rfl id
  have hdirectory := setting?_written StorageSetting.key_injective (StorageSetting.value s) hwritten
    hleftOut .directory "directory" rfl optionalTextOf? (optionalTextOf?_directory s.directory) id
  have hcertificate := setting?_written StorageSetting.key_injective (StorageSetting.value s) hwritten
    hleftOut .certificateFile "cert_file" rfl textOf? rfl id
  have hkey := setting?_written StorageSetting.key_injective (StorageSetting.value s) hwritten
    hleftOut .keyFile "key_file" rfl textOf? rfl id
  simp [storageOf?, settings?_entries, hnamespace, hdirectory, hcertificate, hkey]

/-- **The section on the holder is read back.** -/
theorem subjectOf?_section {i : Identity} {written : List SubjectSetting} (hwritten : written.Nodup)
    (hleftOut : ∀ setting ∉ written, setting.IsDefault i) :
    subjectOf? labels
      (FlowValue.mapping (entries SubjectSetting.key (SubjectSetting.value i) written)).node
      = some i := by
  have hcommon := setting?_written SubjectSetting.key_injective (SubjectSetting.value i) hwritten
    hleftOut .commonName "common_name" rfl textOf? rfl id
  have horganization := setting?_written SubjectSetting.key_injective (SubjectSetting.value i) hwritten
    hleftOut .organization "organization" rfl textOf? rfl id
  have hnames := setting?_written SubjectSetting.key_injective (SubjectSetting.value i) hwritten
    hleftOut .dnsNames "dns_names" rfl (textsOf? labels) (textsOf?_quoted i.dnsNames) id
  simp [subjectOf?, settings?_entries, hcommon, horganization, hnames]

/-! ## 4. Documents are read back -/

variable {c : Config} {l : Layout}

theorem truthOf?_word (b : Bool) :
    truthOf? (FlowValue.word (if b then "true" else "false")).node = some b := by
  cases b <;> rfl

/-- **The document says the configuration that it was written for.** -/
theorem ofDocument?_document (hversion : c.version < 0x1_0000_0000) (hspells : l.Spells c) :
    ofDocument? (FlowValue.mapping (entries Setting.key (l.value c) l.settings)).node = some c := by
  obtain ⟨hwritten, hstorage, hsubject, hleftOut, hstorageLeftOut, hsubjectLeftOut⟩ := hspells
  have hversion := setting?_written Setting.key_injective (l.value c) hwritten hleftOut
    .version "version" rfl numberOf? (number?_toString hversion) id
  have hstorage (labels : Labels) := setting?_written Setting.key_injective (l.value c) hwritten
    hleftOut .storage "storage" rfl (storageOf? labels)
    (storageOf?_section hstorage hstorageLeftOut) id
  have hsubject (labels : Labels) := setting?_written Setting.key_injective (l.value c) hwritten
    hleftOut .subject "subject" rfl (subjectOf? labels)
    (subjectOf?_section hsubject hsubjectLeftOut) id
  have hbinding := setting?_written Setting.key_injective (l.value c) hwritten hleftOut
    .verifyKeyBinding "verify_key_binding" rfl truthOf? (truthOf?_word c.verifyKeyBinding) id
  simp [ofDocument?, settings?_entries, hversion, hstorage, hsubject, hbinding]

/-! ## 5. Documents can be written -/

theorem entriesWritable_entries {ι : Type} {key : ι → String} {value : ι → FlowValue}
    {written : List ι}
    (hkey : ∀ setting, FlowValue.IsWord (key setting))
    (hvalue : ∀ setting, (value setting).IsWritable) :
    FlowValue.EntriesWritable (entries key value written) := by
  rw [FlowValue.entriesWritable_iff, entries, List.forall_mem_map]
  exact fun setting _ => ⟨hkey setting, hvalue setting⟩

theorem Setting.isWord_key (setting : Setting) : FlowValue.IsWord setting.key := by
  cases setting <;> exact ⟨by decide, by decide, List.all_eq_true.mp (by decide)⟩

theorem StorageSetting.isWord_key (setting : StorageSetting) : FlowValue.IsWord setting.key := by
  cases setting <;> exact ⟨by decide, by decide, List.all_eq_true.mp (by decide)⟩

theorem SubjectSetting.isWord_key (setting : SubjectSetting) : FlowValue.IsWord setting.key := by
  cases setting <;> exact ⟨by decide, by decide, List.all_eq_true.mp (by decide)⟩

/-- A number that fits its 32 bits is a word. -/
theorem isWord_toString {n : Nat} (h : n < 0x1_0000_0000) : FlowValue.IsWord (toString n) := by
  have hdigits : (toString n).toList = Nat.toDigits 10 n := by
    rw [Nat.toString_eq_repr, Nat.toList_repr]
  have hlength : (Nat.toDigits 10 n).length ≤ 10 :=
    (Nat.length_toDigits_le_iff (by decide) (by decide)).mpr (by omega)
  refine ⟨fun hempty => ?_, ?_, fun c hc => ?_⟩
  · exact Nat.toDigits_ne_nil (hdigits ▸ String.toList_eq_nil_iff.mpr hempty)
  · rw [← String.length_toList, hdigits]
    omega
  · have hdigit : c.isDigit = true :=
      Nat.isDigit_of_mem_toDigits (by decide) (by decide) (hdigits ▸ hc)
    simp [FlowValue.isWordCharacter, Char.isAlphanum, hdigit]

/-- **What a configuration with printable texts is written as can be written.** -/
theorem entriesWritable_document (h : c.IsPrintable) :
    FlowValue.EntriesWritable (entries Setting.key (l.value c) l.settings) := by
  refine entriesWritable_entries Setting.isWord_key fun setting => ?_
  cases setting with
  | version => exact isWord_toString h.version
  | storage =>
    refine entriesWritable_entries StorageSetting.isWord_key fun setting => ?_
    cases setting with
    | namespaceSegment => exact h.namespaceSegment
    | directory =>
      cases hdir : c.storage.directory with
      | none =>
        rw [StorageSetting.value, hdir]
        exact ⟨by decide, by decide, List.all_eq_true.mp (by decide)⟩
      | some dir =>
        rw [StorageSetting.value, hdir]
        exact h.directory dir hdir
    | certificateFile => exact h.certificateFile
    | keyFile => exact h.keyFile
  | subject =>
    refine entriesWritable_entries SubjectSetting.isWord_key fun setting => ?_
    cases setting with
    | commonName => exact h.commonName
    | organization => exact h.organization
    | dnsNames =>
      rw [SubjectSetting.value, FlowValue.IsWritable, FlowValue.itemsWritable_iff,
        List.forall_mem_map]
      exact h.dnsNames
  | verifyKeyBinding =>
    rw [Layout.value]
    cases c.verifyKeyBinding <;> exact ⟨by decide, by decide, List.all_eq_true.mp (by decide)⟩

/-- The document is read as the configuration. -/
theorem read?_text (h : c.IsPrintable) (hspells : l.Spells c) :
    (Yaml.read? (l.text c)).bind ofDocument? = some c := by
  rw [Layout.text, Yaml.read?_text (entriesWritable_document h), Option.bind_some,
    ofDocument?_document h.version hspells]

/-- **Configurations are read as they are written.** Of a usable one the document gives back every
    setting, whether it is written or left out, with the identity and the locator that follow from
    them. One that is not usable is refused for a rule that it breaks. -/
theorem parse_text (h : c.IsPrintable) (hspells : l.Spells c) :
    (c.IsUsable → ∃ said, parse (l.text c) = .ok said ∧ said = c
      ∧ said.identity = ⟨c.subject.commonName, c.subject.organization, c.subject.dnsNames⟩
      ∧ ∀ env, (∀ dir, c.storage.directory = some dir →
            said.locator env = (Locator.inDirectory dir, []))
          ∧ (c.storage.directory = none →
            said.locator env = Locator.forUser env c.storage.namespaceSegment))
    ∧ (¬c.IsUsable → ∃ broken, c.violation? = some broken
      ∧ parse (l.text c) = .error (.invalid broken)) := by
  have hread := read?_text h hspells
  constructor
  · intro husable
    refine ⟨c, parse_eq_ok_iff.mpr ⟨hread, husable⟩, rfl, rfl, fun env => ⟨?_, ?_⟩⟩
    · intro dir hdir
      rw [locator, hdir]
    · intro hdir
      rw [locator, hdir]
  · intro hunusable
    obtain ⟨broken, hbroken⟩ :=
      Option.ne_none_iff_exists'.mp (mt violation?_eq_none_iff.mp hunusable)
    exact ⟨broken, hbroken, parse_eq_invalid_iff.mpr ⟨c, hread, hbroken⟩⟩

/-- Texts that look like a missing value, a number, a truth value or a mapping, and some with quotes
    and a backslash. -/
def lookalikes : Config where
  version := 4294967295
  storage := ⟨"null", some "~", "\x7b- 1: #\x7d", " \"\" "⟩
  subject := ⟨" 0x1F\\", "mitm-ca", ["true", "1.5"]⟩
  verifyKeyBinding := true

/-- The same with one file for both artifacts. -/
def oneFile : Config :=
  { lookalikes with
    storage := { lookalikes.storage with keyFile := lookalikes.storage.certificateFile } }

/-- Their settings other than the defaults, in no particular order. -/
def lookalikesLayout : Layout where
  settings := [.subject, .version, .storage]
  storage := [.keyFile, .directory, .namespaceSegment, .certificateFile]
  subject := [.dnsNames, .commonName]

theorem parse_text_lookalikes :
    lookalikesLayout.text lookalikes = "\x7bsubject: \x7bdns_names: [\"true\", \"1.5\"], "
      ++ "common_name: \" 0x1F\\\\\"\x7d, version: 4294967295, "
      ++ "storage: \x7bkey_file: \" \\\"\\\" \", directory: \"~\", namespace: \"null\", "
      ++ "cert_file: \"\x7b- 1: #\x7d\"\x7d\x7d"
    ∧ parse (lookalikesLayout.text lookalikes) = .ok lookalikes
    ∧ parse (lookalikesLayout.text oneFile) = .error (.invalid .sameFile) := by
  have hprintable : lookalikes.IsPrintable :=
    { version := by decide
      namespaceSegment := by decide
      directory := by decide
      certificateFile := by decide
      keyFile := by decide
      commonName := by decide
      organization := by decide
      dnsNames := by decide }
  have hprintable' : oneFile.IsPrintable :=
    { hprintable with keyFile := hprintable.certificateFile }
  have hspells : lookalikesLayout.Spells lookalikes :=
    { settings := by decide
      storage := by decide
      subject := by decide
      settingsLeftOut := by rintro (_ | _ | _ | _) <;> decide
      storageLeftOut := by rintro (_ | _ | _ | _) <;> decide
      subjectLeftOut := by rintro (_ | _ | _) <;> decide }
  have hspells' : lookalikesLayout.Spells oneFile :=
    { hspells with
      settingsLeftOut := by rintro (_ | _ | _ | _) <;> decide
      storageLeftOut := by rintro (_ | _ | _ | _) <;> decide }
  have husable : lookalikes.IsUsable := violation?_eq_none_iff.mp (by decide)
  have hclash : oneFile.violation? = some .sameFile := by decide
  have hunusable : ¬oneFile.IsUsable := fun h =>
    nomatch hclash.symm.trans (violation?_eq_none_iff.mpr h)
  obtain ⟨said, hparse, rfl, -⟩ := (parse_text hprintable hspells).1 husable
  obtain ⟨broken, hbroken, hrefused⟩ := (parse_text hprintable' hspells').2 hunusable
  obtain rfl := Option.some.inj (hclash.symm.trans hbroken)
  exact ⟨by decide +kernel, hparse, hrefused⟩

end Config

end RootAuthority
