import RootAuthority.Proofs.Bootstrap.Outcome
import RootAuthority.Proofs.Config.Rules
import RootAuthority.Proofs.Mint.Totality

/-!
# What passes the rules can be minted

The rules ask more of a DNS name than a certificate does, and of the other texts of a subject a
certificate asks nothing. So a configuration that is accepted never fails when its first certificate
is made (`World.mint_configured`). A DNS name outside ASCII is refused by both: by the rules when
the configuration is read, and without them when the certificate is to be made, at the cost of one
serial number.
-/

namespace RootAuthority

namespace Bootstrapper

/-- A bootstrapper mints for the subject of its configuration. -/
theorem identity_ofConfig (env : Environment) (c : Config) :
    (ofConfig env c).1.identity = c.subject :=
  rfl

end Bootstrapper

namespace Config

variable {text : String} {c : Config}

/-- The DNS names of an accepted configuration are ASCII. -/
theorem IsUsable.isAscii (h : c.IsUsable) : ∀ name ∈ c.subject.dnsNames, isAscii name = true :=
  fun name hname => (isDnsName_iff.mp (h.dnsNames name hname)).1

/-- No text is accepted that says a DNS name outside ASCII. -/
theorem parse_of_name (hdocument : (Yaml.read? text).bind ofDocument? = some c) {name : String}
    (hname : name ∈ c.subject.dnsNames) (hascii : RootAuthority.isAscii name = false) :
    ∃ broken, parse text = .error (.invalid broken) := by
  refine parse_of_not_isUsable hdocument fun husable => ?_
  rw [husable.isAscii name hname] at hascii
  cases hascii

end Config

namespace World

variable {w : World} {identity : Identity}

/-- **Minting refuses a DNS name outside ASCII**, after it has drawn one serial number. -/
theorem mint_refuses_name (hclock : w.clock.Representable) (hserial : w.serials.current < maxSerial)
    (hprimes : w.primes ≠ []) (h : ∃ name ∈ identity.dnsNames, isAscii name = false) :
    (∃ name ∈ identity.dnsNames, isAscii name = false ∧
      (w.mint identity).1 = .error (.refused (.dnsName name))) ∧
    (w.mint identity).2.serials = ⟨w.serials.current + 1⟩ := by
  obtain ⟨bad, hbad, hascii⟩ := h
  constructor
  · have hfound : identity.dnsNames.find? (!isAscii ·) ≠ none := by
      intro hnone
      rw [Template.find?_names_eq_none.mp hnone bad hbad] at hascii
      cases hascii
    obtain ⟨name, hname⟩ := Option.ne_none_iff_exists'.mp hfound
    exact ⟨name, List.mem_of_find?_eq_some hname, by simpa using List.find?_some hname,
      mint_of_name hclock hserial hprimes hname⟩
  · have huses := w.uses_mint identity
    rw [if_pos hserial] at huses
    exact huses.1

/-- **What passes the rules can be minted**, with fresh primes, a serial number left and a clock
    that shows one of the years 2 to 9998.

    From every text that is accepted comes a configuration whose DNS names are ASCII and for whose
    subject a certificate is made that can be read back and carries these names, as long as the
    texts of the subject fit into memory. For every identity with a DNS name outside ASCII minting
    is refused over such a name, one serial number is gone, and a text that says these DNS names is
    refused by the rules. -/
theorem mint_configured (hprimes : ∃ pair ∈ w.primes.head?, pair.IsFresh)
    (hserial : w.serials.current < maxSerial) (hlo : 2 ≤ w.clock.year) (hhi : w.clock.year ≤ 9998) :
    (∀ text c env, Config.parse text = .ok c →
      (∀ name ∈ c.subject.dnsNames, isAscii name = true) ∧
      (c.subject.size < 2 ^ 62 →
        ∃ a w', w.mint (Bootstrapper.ofConfig env c).1.identity = (.ok a, w') ∧
          Certificate.ofDer a.certificate.der = .ok a.certificate ∧
          a.certificate.dnsNames = c.subject.dnsNames)) ∧
    (∀ identity : Identity, (∃ name ∈ identity.dnsNames, isAscii name = false) →
      (∃ name ∈ identity.dnsNames, isAscii name = false ∧
        (w.mint identity).1 = .error (.refused (.dnsName name))) ∧
      (w.mint identity).2.serials = ⟨w.serials.current + 1⟩ ∧
      ∀ text c, (Yaml.read? text).bind Config.ofDocument? = some c →
        c.subject.dnsNames = identity.dnsNames →
          ∃ broken, Config.parse text = .error (.invalid broken)) := by
  constructor
  · intro text c env hparse
    obtain ⟨-, husable⟩ := Config.parse_eq_ok_iff.mp hparse
    refine ⟨husable.isAscii, fun hsize => ?_⟩
    have hcan : w.CanMint c.subject :=
      { primes := hprimes
        serial := hserial
        earliest := hlo
        latest := hhi
        names := husable.isAscii
        size := hsize }
    obtain ⟨a, w', hmint⟩ := mint_succeeds hcan
    obtain ⟨_, t, _, _, -, -, ht, hminted⟩ := template_of_mint hmint
    have hnames : a.certificate.dnsNames = t.identity.dnsNames := by
      rw [hminted.certificate]
      rfl
    rw [(Template.mintedAt_ok ht).1] at hnames
    rw [Bootstrapper.identity_ofConfig]
    exact ⟨a, w', hmint, hminted.readBack, hnames⟩
  · intro identity hname
    have hclock := (Instant.representable_iff w.clock).mpr ⟨by omega, by omega⟩
    have hpresent : w.primes ≠ [] := by
      obtain ⟨pair, hhead, -⟩ := hprimes
      intro hnil
      rw [hnil] at hhead
      cases hhead
    obtain ⟨hrefused, hdrawn⟩ := mint_refuses_name hclock hserial hpresent hname
    refine ⟨hrefused, hdrawn, fun text c hdocument hsame => ?_⟩
    obtain ⟨name, hmem, hascii⟩ := hname
    exact Config.parse_of_name hdocument (hsame ▸ hmem) hascii

/-- The empty mapping gives a configuration that can be minted; a DNS name with an accent is refused
    in its text, and without it when the certificate is to be made. -/
theorem mint_configured_accented :
    (∃ pair ∈ untouched.primes.head?, pair.IsFresh) ∧ untouched.serials.current < maxSerial ∧
    2 ≤ untouched.clock.year ∧ untouched.clock.year ≤ 9998 ∧
    Config.parse "\x7b\x7d" = .ok .default ∧
    (∃ a w', untouched.mint .default = (.ok a, w') ∧
      Certificate.ofDer a.certificate.der = .ok a.certificate) ∧
    (untouched.mint ⟨"CA", "", ["café"]⟩).1 = .error (.refused (.dnsName "café")) ∧
    ∃ broken, Config.parse "subject: \x7bdns_names: [café]\x7d" = .error (.invalid broken) := by
  have hcan := canMint_untouched
  obtain ⟨haccepted, hrefused⟩ := mint_configured hcan.primes hcan.serial hcan.earliest hcan.latest
  have hempty : Config.parse "\x7b\x7d" = .ok .default := by decide +kernel
  have hdocument : (Yaml.read? "subject: \x7bdns_names: [café]\x7d").bind Config.ofDocument?
      = some { Config.default with subject := { Identity.default with dnsNames := ["café"] } } := by
    decide +kernel
  obtain ⟨a, w', hmint, hread, -⟩ :=
    (haccepted _ _ untouched.environment hempty).2 hcan.size
  obtain ⟨⟨name, hmem, -, hname⟩, -, hparse⟩ :=
    hrefused ⟨"CA", "", ["café"]⟩ ⟨"café", List.mem_singleton_self _, by decide⟩
  obtain rfl := List.mem_singleton.mp hmem
  exact ⟨hcan.primes, hcan.serial, hcan.earliest, hcan.latest, hempty, ⟨a, w', hmint, hread⟩, hname,
    hparse _ _ hdocument rfl⟩

end World

end RootAuthority
