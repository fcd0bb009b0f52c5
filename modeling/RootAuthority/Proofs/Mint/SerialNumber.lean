import RootAuthority.Proofs.Certificate.Serial
import RootAuthority.Proofs.Der.TwosComplement
import RootAuthority.Proofs.Mint

/-!
# Serial numbers, written and read back

A minted certificate holds the next serial number as the contents of an integer
(`World.serial_of_mint`), which are its shortest form, of at most nine octets
(`Certificate.CarriesSerial`). Reading goes the other way for the octets of any certificate, as long
as the number that they spell fits 64 bits (`World.mint_serial`).
-/

namespace RootAuthority

namespace Certificate

variable {c c' : Certificate} {n n' : Nat}

/-- **The certificate carries a serial number**: its octets are the shortest form of the number in
    two's complement, the first of them is below 128 and zero only if the one behind it is not,
    there are at most nine, and the number is read back from them. -/
structure CarriesSerial (c : Certificate) (n : Nat) : Prop where
  shortest : c.serial.IsShortestForm n
  first : ∃ b rest, c.serial = b :: rest ∧ b < 128 ∧
    (b = 0 → ∃ next more, rest = next :: more ∧ 128 ≤ next)
  length : c.serial.length ≤ 9
  read : c.serialNumber? = some n

/-- A positive number of 64 bits that is written as an integer is carried. -/
theorem carriesSerial_of_integerContent (h : c.serial = Der.integerContent n) (hpos : 0 < n)
    (hfits : n < 2 ^ 64) : c.CarriesSerial n := by
  have hshortest : c.serial.IsShortestForm n := by
    rw [h]
    exact Der.isShortestForm_integerContent n
  exact
    { shortest := hshortest
      first := hshortest.first hpos
      length := hshortest.length_le (w := 8) hfits
      read := serialNumber?_eq_some_iff.mpr ⟨by rw [h, Der.toNat_integerContent], hfits⟩ }

/-- **Different serial numbers are written differently.** -/
theorem CarriesSerial.serial_ne (h : c.CarriesSerial n) (h' : c'.CarriesSerial n') (hne : n ≠ n') :
    c.serial ≠ c'.serial := by
  intro hsame
  have hvalue := h.shortest.value
  rw [hsame, h'.shortest.value] at hvalue
  exact hne (Int.natCast_inj.mp hvalue).symm

end Certificate

namespace World

variable {w w' : World} {identity : Identity} {a : Authority}

/-- **The serial number of a minted certificate** is the next one, and there was one left. -/
theorem serial_of_mint (h : w.mint identity = (.ok a, w')) : w.serials.current < maxSerial ∧
    a.certificate.serial = Der.integerContent (w.serials.current + 1) := by
  obtain ⟨pair, t, signed, signature, hserial, -, ht, hminted⟩ := template_of_mint h
  obtain ⟨-, hnumber, -⟩ := Template.mintedAt_ok ht
  rw [hminted.certificate, ← hnumber]
  exact ⟨hserial, rfl⟩

theorem carriesSerial_of_mint (h : w.mint identity = (.ok a, w')) :
    a.certificate.CarriesSerial (w.serials.current + 1) := by
  obtain ⟨hserial, hcontent⟩ := serial_of_mint h
  exact Certificate.carriesSerial_of_integerContent hcontent (Nat.succ_pos _)
    (Nat.lt_of_le_of_lt hserial (by decide))

theorem serialNumber?_of_mint (h : w.mint identity = (.ok a, w')) :
    w.serials.current < maxSerial ∧
      a.certificate.serialNumber? = some (w.serials.current + 1) :=
  ⟨(serial_of_mint h).1, (carriesSerial_of_mint h).read⟩

/-- **Serial numbers are written in their shortest form and read as what their octets spell.** A
    minted certificate carries the next serial number, and those that carry different ones differ in
    their octets. From the octets of any certificate, however many, the number that they spell is
    read exactly if it fits 64 bits, and no bit is lost when the octets gathered so far are moved up
    for the next. -/
theorem mint_serial :
    (∀ w identity a w', mint w identity = (.ok a, w') →
      a.certificate.CarriesSerial (w.serials.current + 1)) ∧
    (∀ w identity a w' x identity' b x', mint w identity = (.ok a, w') →
      mint x identity' = (.ok b, x') → w.serials.current ≠ x.serials.current →
      a.certificate.serial ≠ b.certificate.serial) ∧
    ∀ c : Certificate,
      (∀ n, c.serialNumber? = some n ↔ Octets.toNat c.serial = n ∧ n < 2 ^ 64) ∧
      (c.serialNumber? = none ↔ 2 ^ 64 ≤ Octets.toNat c.serial) ∧
      ∀ n front b back, c.serialNumber? = some n →
        c.serial.dropWhile (· = 0) = front ++ b :: back →
        (Octets.toWord front <<< 8).toNat = Octets.toNat front * 2 ^ 8 := by
  refine ⟨fun w identity a w' h => carriesSerial_of_mint h, ?_, fun c =>
    ⟨fun n => Certificate.serialNumber?_eq_some_iff, Certificate.serialNumber?_eq_none_iff,
      fun n front b back => Certificate.toNat_moveUp_of_serialNumber?⟩⟩
  intro w identity a w' x identity' b x' h h' hne
  have hnumbers : w.serials.current + 1 ≠ x.serials.current + 1 := fun hsame =>
    hne (Nat.succ.inj hsame)
  exact (carriesSerial_of_mint h).serial_ne (carriesSerial_of_mint h') hnumbers

/-- A source whose next number needs a zero octet in front. -/
def beforeHighBit : World := { untouched with serials := ⟨127⟩ }

/-- A source with one number left. -/
def beforeLast : World := { untouched with serials := ⟨maxSerial - 1⟩ }

/-- The first number with a zero octet in front, and the last of all; seven octets behind zeros, and
    nine without any. -/
theorem mint_serial_highBit :
    ∃ a w' b x', beforeHighBit.mint .default = (.ok a, w') ∧
      beforeLast.mint .default = (.ok b, x') ∧
      a.certificate.CarriesSerial 128 ∧ b.certificate.CarriesSerial maxSerial ∧
      a.certificate.serial ≠ b.certificate.serial ∧
      Certificate.serialNumber? { a.certificate with serial := [0, 0, 1, 0, 0, 0, 0, 0, 2] }
        = some 0x01_0000_0000_0002 ∧
      Certificate.serialNumber? { a.certificate with serial := [1, 0, 0, 0, 0, 0, 0, 0, 2] }
        = none := by
  have hcan : beforeHighBit.CanMint .default := { canMint_untouched with serial := by decide }
  have hcan' : beforeLast.CanMint .default := { canMint_untouched with serial := by decide }
  obtain ⟨a, w', h⟩ := mint_succeeds hcan
  obtain ⟨b, x', h'⟩ := mint_succeeds hcan'
  have hseven : Octets.toNat [0, 0, 1, 0, 0, 0, 0, 0, 2] = 0x01_0000_0000_0002 := by decide
  have hnine : 2 ^ 64 ≤ Octets.toNat [1, 0, 0, 0, 0, 0, 0, 0, 2] := by decide
  obtain ⟨hcarries, hdiffer, hreads⟩ := mint_serial
  exact ⟨a, w', b, x', h, h', hcarries _ _ _ _ h, hcarries _ _ _ _ h',
    hdiffer _ _ _ _ _ _ _ _ h h' (by decide), ((hreads _).1 _).mpr ⟨hseven, by decide⟩,
    (hreads _).2.1.mpr hnine⟩

end World

end RootAuthority
