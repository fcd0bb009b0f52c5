import RootAuthority.Proofs.Der.Number
import RootAuthority.Proofs.Rsa.Fresh

/-!
# Keys that were written are read back

A key file holds eight numbers: those of the private key and three more that speed up signing. Here
they may be any numbers (`SigningKey.encodeContainer`), as long as they are short: none of them takes
more than 512 octets (`SigningKey.IsShort`).

* `PrivateKey.ofContainer_encodeContainer`: a short valid key is read back from its container.
* `SigningKey.ofContainer?_encodeContainer`: so is the key to sign with, if it can be signed with.
* `PublicKey.ofDer?_encode`: a public key is read back; so its octets tell public keys apart
  (`PublicKey.encode_injective`).
-/

namespace RootAuthority.Rsa

open Der

/-! ## 1. Lengths -/

/-- An element has at most four octets more than short contents. -/
theorem length_encode_le {e : Element} {b : Nat} (h : e.content.length ≤ b) (hb : b < 256 ^ 2) :
    e.encode.length ≤ b + 4 :=
  Der.length_encode_le 2 h hb

theorem length_integer_le {n w : Nat} (hn : Octets.width n ≤ w) (hw : w < 2 ^ 15) :
    (integer n).length ≤ w + 5 := by
  have hl := length_integerContent_le n
  exact length_encode_le (e := ⟨Tag.primitive Tag.integer, integerContent n⟩) (b := w + 1)
    (by dsimp only; omega) (by omega)

/-- A row of short numbers. -/
theorem length_integers_le : ∀ {numbers : List Nat}, (∀ n ∈ numbers, Octets.width n ≤ 512) →
    (numbers.map integer).flatten.length ≤ 517 * numbers.length
  | [], _ => by simp
  | n :: numbers, h => by
      have ih := length_integers_le fun m hm => h m (List.mem_cons_of_mem n hm)
      have hn := length_integer_le (h n List.mem_cons_self) (by decide)
      simp only [List.map_cons, List.flatten_cons, List.length_append, List.length_cons]
      omega

/-! ## 2. What a key file holds -/

namespace SigningKey

/-- The numbers of a key in the order in which they are written. -/
def numbers (k : SigningKey) : List Nat :=
  [0, k.key.modulus, k.key.publicExponent, k.key.privateExponent, k.key.prime1, k.key.prime2,
    k.exponent1, k.exponent2, k.coefficient]

/-- No number of the key takes more than 512 octets. -/
def IsShort (k : SigningKey) : Prop := ∀ n ∈ k.numbers, Octets.width n ≤ 512

/-- The octets of a key, whether or not its numbers belong together. -/
def encode (k : SigningKey) : Octets := sequence (k.numbers.map integer)

/-- The parts of a container. -/
def containerParts (k : SigningKey) : List Octets :=
  [integer 0, PublicKey.algorithm, primitive Tag.octetString k.encode]

/-- **The container of a key**, whether or not its numbers belong together. -/
def encodeContainer (k : SigningKey) : Octets := sequence k.containerParts

/-- A private key is written with the three numbers that belong to it. -/
theorem encodeContainer_ofKey (k : PrivateKey) :
    (ofKey k).encodeContainer = k.encodeContainer := rfl

variable {k : SigningKey}

theorem length_contents_le (h : k.IsShort) : (k.numbers.map integer).flatten.length ≤ 4653 :=
  length_integers_le h

theorem length_encode_le (h : k.IsShort) : k.encode.length ≤ 4657 :=
  Rsa.length_encode_le (e := ⟨Tag.composite Tag.sequence, (k.numbers.map integer).flatten⟩)
    (length_contents_le h) (by decide)

theorem length_containerParts_le (h : k.IsShort) : k.containerParts.flatten.length ≤ 4700 := by
  have hkey : (primitive Tag.octetString k.encode).length ≤ 4661 :=
    Rsa.length_encode_le (e := ⟨Tag.primitive Tag.octetString, k.encode⟩) (length_encode_le h)
      (by decide)
  have hzero : (integer 0).length = 3 := by decide
  have halgorithm : PublicKey.algorithm.length = 15 := by decide
  simp only [containerParts, List.flatten_cons, List.flatten_nil, List.length_append,
    List.length_nil, hzero, halgorithm]
  omega

end SigningKey

/-! ## 3. Loading a key -/

namespace PrivateKey

variable {k : SigningKey}

/-- **The key in a container is read back.** -/
theorem ofDer?_encode (h : k.IsShort) : ofDer? k.encode = some k.key := by
  have hlength := SigningKey.length_contents_le h
  have honly : Strict.only 0x30 k.encode = some (k.numbers.map integer).flatten :=
    Strict.only_encode (e := ⟨Tag.composite Tag.sequence, (k.numbers.map integer).flatten⟩) rfl
      (by dsimp only; rw [Strict.lengthLimit]; omega)
  have hnumbers := Octets.readMany_encode k.numbers [] fun n hn rest =>
    Strict.readUnsigned_integer (Nat.lt_of_le_of_lt (h n hn) (by decide)) rest
  rw [List.append_nil] at hnumbers
  rw [ofDer?, honly]
  simp only [Option.bind_eq_bind, Option.bind_some]
  rw [show 9 = k.numbers.length from rfl, hnumbers]
  rfl

/-- The octets of the algorithm in front of a key. -/
theorem readAlgorithm_algorithm (rest : Octets) :
    Container.readAlgorithm (PublicKey.algorithm ++ rest)
      = some ((ObjectId.rsaEncryption, some (0x05, [])), rest) := by
  have hsequence : Strict.readTagged 0x30 (PublicKey.algorithm ++ rest)
      = some (primitive Tag.objectId ObjectId.rsaEncryption ++ primitive Tag.null [], rest) :=
    Strict.readTagged_encode (e := ⟨Tag.composite Tag.sequence,
      primitive Tag.objectId ObjectId.rsaEncryption ++ primitive Tag.null []⟩) rfl (by decide) rest
  have hid : Strict.readTagged 0x06
      (primitive Tag.objectId ObjectId.rsaEncryption ++ primitive Tag.null [])
      = some (ObjectId.rsaEncryption, primitive Tag.null []) := by decide
  have hdotted : (ObjectId.dotted? ObjectId.rsaEncryption).isSome = true := by decide
  obtain ⟨text, htext⟩ := Option.isSome_iff_exists.mp hdotted
  have hnull : Strict.readElement (primitive Tag.null []) = some ((0x05, []), []) := by decide
  have hne : primitive Tag.null [] ≠ [] := by decide
  rw [Container.readAlgorithm, hsequence]
  simp [hid, htext, hnull, hne]

/-- **A container is taken apart into what it was made of.** -/
theorem ofDer?_encodeContainer (h : k.IsShort) : Container.ofDer? k.encodeContainer
    = some ⟨ObjectId.rsaEncryption, some (0x05, []), k.encode⟩ := by
  have hlength := SigningKey.length_containerParts_le h
  have hkeyLength := SigningKey.length_encode_le h
  have honly : Strict.only 0x30 k.encodeContainer = some k.containerParts.flatten :=
    Strict.only_encode (e := ⟨Tag.composite Tag.sequence, k.containerParts.flatten⟩) rfl
      (Nat.le_trans hlength (by decide))
  have hversion (rest : Octets) : Strict.readTagged 0x02 (integer 0 ++ rest) = some ([0], rest) :=
    Strict.readTagged_encode (e := ⟨Tag.primitive Tag.integer, [0]⟩) rfl (by decide) rest
  have hkey : Strict.readTagged 0x04 (primitive Tag.octetString k.encode) = some (k.encode, []) := by
    have hread := Strict.readTagged_encode (e := ⟨Tag.primitive Tag.octetString, k.encode⟩) rfl
      (Nat.le_trans hkeyLength (by decide)) []
    rwa [List.append_nil] at hread
  rw [Container.ofDer?, honly]
  simp [SigningKey.containerParts, hversion, readAlgorithm_algorithm, hkey, Container.skipPublicKey,
    Container.onlyFields]

/-- **A short valid key is read back from its container**, whatever the three numbers are that speed
    up signing. -/
theorem ofContainer_encodeContainer (h : k.IsShort) (hv : k.key.IsValid) :
    ofContainer k.encodeContainer = .ok k.key := by
  rw [ofContainer_eq_iff, decode, ofDer?_encodeContainer h]
  simp only [ne_eq, not_true_eq_false, if_false, ofDer?_encode h]
  exact accept_of_isValid hv

end PrivateKey

/-! ## 4. Keys to sign with -/

namespace SigningKey

variable {k : SigningKey}

/-- The container is opened by the rules of signing, too. -/
theorem keyOctets?_encodeContainer (h : k.IsShort) :
    keyOctets? k.encodeContainer = some k.encode := by
  have hlength := length_containerParts_le h
  have hkeyLength := length_encode_le h
  have honly : Compact.only 0x30 k.encodeContainer = some k.containerParts.flatten :=
    Compact.only_encode (e := ⟨Tag.composite Tag.sequence, k.containerParts.flatten⟩)
      (Nat.le_trans hlength (by decide))
  have hversion (rest : Octets) : Compact.readUnsigned (integer 0 ++ rest) = some (0, rest) :=
    Compact.readUnsigned_integer (by decide) rest
  have halgorithm (rest : Octets) : Compact.readTagged 0x30 (PublicKey.algorithm ++ rest)
      = some (algorithmContent, rest) :=
    Compact.readTagged_encode (e := ⟨Tag.composite Tag.sequence, algorithmContent⟩) (by decide) rest
  have hkey : Compact.readTagged 0x04 (primitive Tag.octetString k.encode)
      = some (k.encode, []) := by
    have hread := Compact.readTagged_encode (e := ⟨Tag.primitive Tag.octetString, k.encode⟩)
      (Nat.le_trans hkeyLength (by decide)) []
    rwa [List.append_nil] at hread
  rw [keyOctets?, honly]
  simp [containerParts, hversion, halgorithm, hkey]

theorem ofOctets?_encode (h : k.IsShort) : ofOctets? k.encode = some k := by
  have hlength := length_contents_le h
  have honly : Compact.only 0x30 k.encode = some (k.numbers.map integer).flatten :=
    Compact.only_encode (e := ⟨Tag.composite Tag.sequence, (k.numbers.map integer).flatten⟩)
      (Nat.le_trans hlength (by decide))
  have hnumbers := Octets.readMany_encode k.numbers [] fun n hn rest =>
    Compact.readUnsigned_integer (Nat.lt_of_le_of_lt (h n hn) (by decide)) rest
  rw [List.append_nil] at hnumbers
  rw [ofOctets?, honly]
  simp only [Option.bind_eq_bind, Option.bind_some]
  rw [show 9 = k.numbers.length from rfl, hnumbers]
  rfl

/-- **A short key is read back from its container** exactly if it can be signed with. -/
theorem ofContainer?_encodeContainer (h : k.IsShort) :
    ofContainer? k.encodeContainer = if k.isUsable then some k else none := by
  simp [ofContainer?, keyOctets?_encodeContainer h, ofOctets?_encode h]

end SigningKey

/-! ## 5. Public keys -/

namespace PublicKey

/-- Both numbers are positive and take no more than 1024 octets. -/
structure IsReadable (k : PublicKey) : Prop where
  modulus_pos : 0 < k.modulus
  exponent_pos : 0 < k.exponent
  modulus_width : Octets.width k.modulus ≤ 1024
  exponent_width : Octets.width k.exponent ≤ 1024

theorem readPositive_integer {n : Nat} (hn : 0 < n) (hw : Octets.width n ≤ 1024) (rest : Octets) :
    Compact.readPositive (integer n ++ rest) = some (n, rest) := by
  have hread := Compact.readUnsigned_integer (n := n) (Nat.lt_of_le_of_lt hw (by decide)) rest
  rw [Compact.readPositive, hread]
  simp only [Option.bind_eq_bind, Option.bind_some]
  rw [if_neg (Nat.ne_of_gt hn)]
  rfl

/-- **A public key is read back.** -/
theorem ofDer?_encode {k : PublicKey} (h : k.IsReadable) : ofDer? k.encode = some k := by
  have hmodulus := length_integer_le h.modulus_width (by decide)
  have hexponent := length_integer_le h.exponent_width (by decide)
  have honly : Compact.only 0x30 k.encode
      = some [integer k.modulus, integer k.exponent].flatten :=
    Compact.only_encode
      (e := ⟨Tag.composite Tag.sequence, [integer k.modulus, integer k.exponent].flatten⟩) (by
        simp only [List.flatten_cons, List.flatten_nil, List.length_append, List.length_nil,
          Compact.lengthLimit]
        omega)
  rw [ofDer?, honly]
  simp [readPositive_integer h.modulus_pos h.modulus_width,
    show Compact.readPositive (integer k.exponent) = some (k.exponent, []) by
      have hread := readPositive_integer h.exponent_pos h.exponent_width []
      rwa [List.append_nil] at hread]

/-- **The octets of public keys tell them apart.** -/
theorem encode_injective {k k' : PublicKey} (h : k.IsReadable) (h' : k'.IsReadable)
    (he : k.encode = k'.encode) : k = k' := by
  have hread := ofDer?_encode h
  rw [he, ofDer?_encode h'] at hread
  exact (Option.some.inj hread).symm

/-- The public half of a valid key. -/
theorem isReadable_of_isValid {k : PrivateKey} (h : k.IsValid) : k.publicKey.IsReadable := by
  have hlt := h.exponent_lt_modulus
  have htwo := h.two_le_exponent
  refine ⟨Nat.lt_of_le_of_lt (Nat.zero_le _) hlt, Nat.lt_of_lt_of_le Nat.two_pos htwo, ?_, ?_⟩
  · have hbits := h.bits
    rw [Octets.width_eq_bitLength]
    show (Octets.bitLength k.modulus + 7) / 8 ≤ 1024
    have hmax : PrivateKey.maxBits = 4096 := rfl
    omega
  · have hexp : Octets.bitLength k.publicExponent ≤ 33 := Octets.bitLength_le h.exponent_lt
    rw [Octets.width_eq_bitLength]
    show (Octets.bitLength k.publicExponent + 7) / 8 ≤ 1024
    omega

/-- The octets of a public key with its algorithm. -/
theorem length_encodeInfo_le {k : PublicKey} (h : k.IsReadable) : k.encodeInfo.length ≤ 3000 := by
  have hmodulus := length_integer_le h.modulus_width (by decide)
  have hexponent := length_integer_le h.exponent_width (by decide)
  have hkey : k.encode.length ≤ 2062 :=
    length_encode_le
      (e := ⟨Tag.composite Tag.sequence, [integer k.modulus, integer k.exponent].flatten⟩)
      (b := 2058) (by
        simp only [List.flatten_cons, List.flatten_nil, List.length_append, List.length_nil]
        omega) (by decide)
  have hbits : (primitive Tag.bitString (0 :: k.encode)).length ≤ 2067 :=
    length_encode_le (e := ⟨Tag.primitive Tag.bitString, 0 :: k.encode⟩) (b := 2063) (by
      rw [List.length_cons]
      omega) (by decide)
  have halgorithm : algorithm.length = 15 := by decide
  refine Nat.le_trans (length_encode_le (e := ⟨Tag.composite Tag.sequence,
    [algorithm, primitive Tag.bitString (0 :: k.encode)].flatten⟩) (b := 2082) ?_ (by decide))
    (by decide)
  simp only [List.flatten_cons, List.flatten_nil, List.length_append, List.length_nil]
  omega

end PublicKey

/-! ## 6. Fresh keys -/

/-- **No number of a fresh key exceeds the modulus**, so all of them are short. -/
theorem SigningKey.isShort_ofPrimes {pair : PrimePair} (h : pair.IsFresh) :
    (ofKey (PrivateKey.ofPrimes pair)).IsShort := by
  have hmodulus := PrivateKey.width_ofPrimes h
  have hshort {n : Nat} (hn : n ≤ (PrivateKey.ofPrimes pair).modulus) : Octets.width n ≤ 512 :=
    Nat.le_trans (hmodulus ▸ Octets.width_mono hn) (by decide : 256 ≤ 512)
  have hd := Nat.le_of_lt (PrivateKey.privateExponent_lt_modulus h)
  have hp := PrivateKey.first_le_modulus h
  have hcoefficient := Nat.le_of_lt (Modular.inverse_lt h.first.pos pair.q)
  intro n hn
  simp only [numbers, List.mem_cons, List.not_mem_nil, or_false] at hn
  rcases hn with rfl | rfl | rfl | rfl | rfl | rfl | rfl | rfl | rfl
  · exact hshort (Nat.zero_le _)
  · exact hshort (Nat.le_refl _)
  · exact hshort (Nat.le_of_lt (PrivateKey.freshExponent_lt_modulus h))
  · exact hshort hd
  · exact hshort hp
  · exact hshort (PrivateKey.second_le_modulus h)
  · exact hshort (Nat.le_trans (Nat.mod_le _ _) hd)
  · exact hshort (Nat.le_trans (Nat.mod_le _ _) hd)
  · exact hshort (Nat.le_trans hcoefficient hp)

end RootAuthority.Rsa
