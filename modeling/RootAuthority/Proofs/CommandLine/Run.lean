import RootAuthority.CommandLine.Run
import RootAuthority.Proofs.Bootstrap.Store

/-!
# What a run of the program does

A run that gets an authority (`CommandLine.Obtains`) prints what it is and, on request, writes its
certificate as text; it changes no other file after that (`CommandLine.Obtains.shows_and_exports`).
-/

namespace RootAuthority

open FileSystem

namespace FileSystem

variable {fs fs' fs'' : FileSystem} {p : Path} {contents : Octets} {mode : Nat}

/-- **A write puts one file** where it can. -/
theorem write_eq {t : Target} (ht : fs.locate true p = .ok t) (hw : t.Writable)
    (contents : Octets) :
    ∃ m, fs.write p contents = .ok (fs.put t.location (.file m contents)) := by
  obtain ⟨m, hopen⟩ := openForWriting_eq 0o666 ht hw
  have hfind : (fs.put t.location (.file m [])).find? t.location = some (.file m []) := by
    rw [(hw.mayPut ht m []).find?_put, if_pos rfl]
  refine ⟨m, ?_⟩
  unfold write
  rw [hopen]
  show Except.ok (append _ _ _) = _
  rw [append, hfind]
  exact congrArg Except.ok (put_put fs t.location _ _)

/-- A write that does not fail did just that. -/
theorem write_ok (h : fs.write p contents = .ok fs') : ∃ t m, fs.locate true p = .ok t ∧
    t.Writable ∧ fs' = fs.put t.location (.file m contents) := by
  obtain ⟨⟨loc, fs₁⟩, hopen, -⟩ := bind_eq_ok_iff.mp h
  obtain ⟨t, ht, hw⟩ := writable_of_openForWriting hopen
  obtain ⟨m, hwrite⟩ := write_eq ht hw contents
  rw [hwrite] at h
  exact ⟨t, m, ht, hw, (Except.ok.inj h).symm⟩

/-- Then its mode can be changed, which puts the file again. -/
theorem changeMode_put {t : Target} (ht : fs.locate true p = .ok t) (hw : t.Writable) {m : Nat}
    (h : (fs.put t.location (.file m contents)).changeMode p mode = .ok fs'') :
    fs'' = fs.put t.location (.file mode contents) := by
  have hput := hw.mayPut ht m contents
  have hfind : (fs.put t.location (.file m contents)).find? t.location
      = some (.file m contents) := by
    rw [hput.find?_put, if_pos rfl]
  have hnew := locate_put hput ht
  rw [hfind, hw.1] at hnew
  rw [changeMode, hnew] at h
  rw [← Except.ok.inj h, setMode, hfind]
  exact put_put fs t.location _ _

end FileSystem

/-- Where nothing is left to prepare, asking for a path changes the log only. -/
theorem World.resolve_of_settled {w : World} {l : Locator} (hs : l.Settled w.files)
    (file : String) : { (w.resolve l file).2 with log := [] } = { w with log := [] } := by
  obtain ⟨events, hresolve⟩ := w.resolve_eq l file
  rw [hresolve, Locator.prepare_of_settled hs]
  rfl

namespace CommandLine

/-! ## 1. What a run leaves behind -/

/-- **The lines on an authority.** -/
def description (a : Authority) : List String :=
  [ "origin:      " ++ a.origin.name,
    "subject:     " ++ a.certificate.subject.text,
    "serial:      " ++ a.certificate.serial.toHex,
    "not before:  " ++ a.certificate.notBefore.display,
    "not after:   " ++ a.certificate.notAfter.display,
    "sha256:      " ++ a.fingerprint ]

/-- Lines as they are printed. -/
def printed (lines : List String) : String := String.join (lines.map (· ++ "\n"))

/-- **The lines were printed**, one after the other and the first at the start of a line. -/
def Shows (output : String) (lines : List String) : Prop :=
  ∃ front back, output = front ++ "\n" ++ printed lines ++ back

theorem Shows.append {output : String} {lines : List String} (h : Shows output lines)
    (more : String) : Shows (output ++ more) lines := by
  obtain ⟨front, back, rfl⟩ := h
  exact ⟨front, back ++ more, String.append_assoc⟩

/-- **What an export does to files**: it puts one with the certificate as text, or none if no path
    is given or nothing can be written there. -/
inductive Exports (a : Authority) (exportPath : Option Path) (fs : FileSystem) :
    FileSystem → Prop
  | nothing (h : ∀ path ∈ exportPath, ¬fs.CanWrite path) : Exports a exportPath fs fs
  | file {path : Path} {t : Target} (m : Nat) (hpath : path ∈ exportPath)
      (ht : fs.locate true path = .ok t) (hw : t.Writable) :
      Exports a exportPath fs (fs.put t.location (.file m (Octets.ofText a.pem)))

namespace Console

variable {c : Console} {b : Bootstrapper} {a : Authority}

/-! ## 2. Steps of a run -/

theorem foldl_print (lines : List String) (c : Console) :
    lines.foldl print c = { c with output := c.output ++ printed lines } := by
  induction lines generalizing c with
  | nil =>
    rw [printed, List.map_nil, String.join_nil, String.append_empty]
    rfl
  | cons line lines ih =>
    rw [List.foldl_cons, ih, print, printed, printed, List.map_cons, String.join_cons]
    simp only [String.append_assoc]

/-- **Telling about an authority** prints the lines on it, and changes nothing but the log where
    nothing is left to prepare. -/
theorem describe_settled (hs : b.locator.Settled c.world.files) (a : Authority) :
    (c.describe b a).world = { c.world with log := [] } ∧
      Shows (c.describe b a).output (description a) := by
  let c₁ := (c.goOn (b.certificatePath c.world).2).print
    ("certificate: " ++ (b.certificatePath c.world).1)
  let beforeLast := c₁.goOn (b.keyPath c₁.world).2
  let last := "private key: " ++ (b.keyPath c₁.world).1
  let c₂ := beforeLast.print last
  have hfirst : c₁.world = { c.world with log := [] } := World.resolve_of_settled hs _
  have hsecond : c₂.world = { c₁.world with log := [] } :=
    World.resolve_of_settled (hfirst ▸ hs) _
  have hdescribe : c.describe b a = (description a).foldl print c₂ := rfl
  rw [hdescribe, foldl_print]
  refine ⟨?_, beforeLast.output ++ last, "", ?_⟩
  · show c₂.world = _
    rw [hsecond, hfirst]
  · rw [String.append_empty]
    rfl

/-- Exporting does what an export may do, and what was shown is still shown. -/
theorem exportTo_exports (c : Console) (path : Path) (a : Authority) :
    (∃ more, (c.exportTo path a).1.output = c.output ++ more) ∧
      Exports a (some path) c.world.files (c.exportTo path a).2.files := by
  unfold exportTo
  cases hwrite : c.world.files.write path (Octets.ofText a.pem) with
  | error e =>
    refine ⟨⟨"", String.append_empty.symm⟩, .nothing ?_⟩
    rintro _ ⟨⟩ ⟨t, ht, hw⟩
    obtain ⟨m, hok⟩ := write_eq ht hw (Octets.ofText a.pem)
    rw [hok] at hwrite
    cases hwrite
  | ok files =>
    obtain ⟨t, m, ht, hw, rfl⟩ := write_ok hwrite
    dsimp only
    cases hmode : (c.world.files.put t.location (.file m (Octets.ofText a.pem))).changeMode path
        exportMode with
    | error e => exact ⟨⟨"", String.append_empty.symm⟩, .file m rfl ht hw⟩
    | ok files' =>
      obtain rfl := changeMode_put ht hw hmode
      exact ⟨⟨_, rfl⟩, .file exportMode rfl ht hw⟩

/-- **A configured run that gets an authority** tells about it, and exports its certificate on
    request; that is all that it does to the files afterwards. -/
theorem runConfigured_exports {c : Console} {config : Config} {exportPath : Option Path}
    {w' : World} (h : (Bootstrapper.ofConfig c.world.environment config).1.bootstrap
      { c.world with log := [] } = (.ok a, w'))
    (hs : (Bootstrapper.ofConfig c.world.environment config).1.locator.Settled w'.files) :
    Shows (c.runConfigured config exportPath).1.output (description a) ∧
      Exports a exportPath w'.files (c.runConfigured config exportPath).2.files := by
  let b := (Bootstrapper.ofConfig c.world.environment config).1
  let c₁ := c.goOn (c.world.report (Bootstrapper.ofConfig c.world.environment config).2)
  let c₂ := (c₁.goOn w').describe b a
  have hrun : c.runConfigured config exportPath
      = exportPath.elim c₂.finish fun path => c₂.exportTo path a := by
    unfold runConfigured
    dsimp only
    rewrite [show b.bootstrap c₁.world = (.ok a, w') from h]
    cases exportPath with
    | none => rfl
    | some path => rfl
  obtain ⟨hworld, hshows⟩ := describe_settled (c := c₁.goOn w') hs a
  have hfiles : c₂.world.files = w'.files := by
    rewrite [show c₂.world = _ from hworld]
    rfl
  rw [hrun, ← hfiles]
  cases exportPath with
  | none => exact ⟨hshows, .nothing nofun⟩
  | some path =>
    obtain ⟨⟨more, hmore⟩, hexports⟩ := c₂.exportTo_exports path a
    rw [Option.elim_some, hmore]
    exact ⟨hshows.append more, hexports⟩

end Console

/-! ## 3. A run -/

/-- The world in which a run looks for its authority: serial numbers start from the clock, and all
    events so far have been printed. -/
def started (w : World) : World := { w with serials := .ofClock w.clock, log := [] }

/-- **What a plan says**: the arguments give settings, and these lead to a bootstrapper. -/
theorem plan_eq_some_iff {w : World} {arguments : List String} {values : Values}
    {b : Bootstrapper} : plan w arguments = (values, some b) ↔
      readArguments arguments = .ok (.run values) ∧ ∃ config,
        configure w.files values = .ok config ∧
        b = (Bootstrapper.ofConfig w.environment config).1 := by
  constructor
  · intro h
    unfold plan at h
    split at h
    · next settings harguments =>
      obtain ⟨rfl, hb⟩ := Prod.mk.inj h
      cases hconfig : configure w.files settings with
      | error f =>
        rw [hconfig] at hb
        cases hb
      | ok config =>
        rw [hconfig] at hb
        exact ⟨harguments, config, rfl, (Option.some.inj hb).symm⟩
    · cases (Prod.mk.inj h).2
  · rintro ⟨harguments, config, hconfig, rfl⟩
    rw [plan, harguments]
    dsimp only
    rw [hconfig]

/-- **A run gets an authority**: its arguments give settings, these lead to a bootstrapper, and
    that recovers an authority or mints one. -/
structure Obtains (w : World) (arguments : List String) (values : Values) (b : Bootstrapper)
    (a : Authority) (w' : World) : Prop where
  plan : plan w arguments = (values, some b)
  clock : w.clock.Representable
  bootstrap : b.bootstrap (started w) = (.ok a, w')

/-- **Then it prints the lines on the authority.** Afterwards it exports the certificate if asked
    to, and changes no other file. -/
theorem Obtains.shows_and_exports {w w' : World} {arguments : List String} {values : Values}
    {b : Bootstrapper} {a : Authority} (h : Obtains w arguments values b a w')
    (hs : b.locator.Settled w'.files) (logSetting : Option String) :
    Shows (run w logSetting arguments).1.output (description a) ∧
      Exports a (values.lookup .exportPem) w'.files (run w logSetting arguments).2.files := by
  obtain ⟨harguments, config, hconfig, rfl⟩ := plan_eq_some_iff.mp h.plan
  have hrun : run w logSetting arguments = Console.runConfigured
      ⟨LogFilter.parse logSetting, { w with serials := .ofClock w.clock }, ""⟩ config
      (values.lookup .exportPem) := by
    rw [run, harguments]
    dsimp only
    rw [runWith, hconfig]
    exact if_pos h.clock
  rw [hrun]
  exact Console.runConfigured_exports h.bootstrap hs

end CommandLine

end RootAuthority
