/-!
# Octets: byte strings, the numbers they spell and their hexadecimal text

Certificates, keys and files are strings of octets. This module fixes how such a string is read:

* as an unsigned number, most significant octet first (`Octets.toNat`), and back at a chosen width
  (`Octets.ofNat`) or at the least width that holds the number (`Octets.ofNatMin`);
* as a word of 64 bits (`Octets.toWord`);
* as a prefix of a given length and a remainder (`Octets.splitAt?`), which refuses to read past the
  end;
* as lowercase hexadecimal text (`Octets.toHex`, `Octets.ofHex?`);
* as UTF-8 text (`Octets.ofText`, `Octets.toText?`) and as big-endian UTF-16 text
  (`Octets.utf16Text?`).
-/

namespace RootAuthority

/-- A string of octets. -/
abbrev Octets := List UInt8

namespace Octets

/-! ## 1. Unsigned numbers -/

/-- **The number spelled by the octets**, most significant first. -/
def toNat (bs : Octets) : Nat :=
  bs.foldl (fun n b => n * 256 + b.toNat) 0

/-- **The octets gathered in a word**: each of them moves those before it up by eight bits, and bits
    beyond the 64th are lost. -/
def toWord (bs : Octets) : UInt64 :=
  bs.foldl (fun word b => word <<< 8 ||| b.toUInt64) 0

/-- The `w` low-order octets of `n` put in front of `tail`. -/
def pushNat : (w n : Nat) → (tail : Octets) → Octets
  | 0, _, tail => tail
  | w + 1, n, tail => pushNat w (n / 256) (UInt8.ofNat n :: tail)

/-- **The number `n` at a width of `w` octets**; higher octets are dropped. -/
def ofNat (w n : Nat) : Octets := pushNat w n []

/-- How many octets the number needs: none for zero. -/
def width (n : Nat) : Nat := if n = 0 then 0 else Nat.log2 n / 8 + 1

/-- The number at the least width that holds it; zero is the empty string. -/
def ofNatMin (n : Nat) : Octets := ofNat (width n) n

/-- How many binary digits the number needs: none for zero. -/
def bitLength (n : Nat) : Nat := if n = 0 then 0 else Nat.log2 n + 1

@[simp] theorem toNat_nil : toNat [] = 0 := rfl

theorem length_pushNat : ∀ (w n : Nat) (tail : Octets),
    (pushNat w n tail).length = w + tail.length
  | 0, _, _ => by simp [pushNat]
  | w + 1, n, tail => by
      rw [pushNat, length_pushNat w]
      simp; omega

@[simp] theorem length_ofNat (w n : Nat) : (ofNat w n).length = w := by
  simp [ofNat, length_pushNat]

/-! ## 2. Cutting -/

/-- The first `n` octets and what follows them; nothing if there are fewer. -/
def splitAt? : (n : Nat) → Octets → Option (Octets × Octets)
  | 0, bs => some ([], bs)
  | _ + 1, [] => none
  | n + 1, b :: bs => (splitAt? n bs).map fun (front, rest) => (b :: front, rest)

/-- A cut loses nothing, and the first part has the length asked for. -/
theorem splitAt?_eq_some : ∀ {n : Nat} {bs front rest : Octets},
    splitAt? n bs = some (front, rest) → bs = front ++ rest ∧ front.length = n
  | 0, bs, front, rest, h => by
      simp [splitAt?] at h
      obtain ⟨rfl, rfl⟩ := h
      simp
  | n + 1, [], _, _, h => by simp [splitAt?] at h
  | n + 1, b :: bs, front, rest, h => by
      simp only [splitAt?, Option.map_eq_some_iff, Prod.mk.injEq] at h
      obtain ⟨⟨f, r⟩, hs, rfl, rfl⟩ := h
      obtain ⟨rfl, rfl⟩ := splitAt?_eq_some hs
      simp

@[simp] theorem splitAt?_append (front rest : Octets) :
    splitAt? front.length (front ++ rest) = some (front, rest) := by
  induction front with
  | nil => rfl
  | cons b bs ih => simp [splitAt?, ih]

/-- Reads `n` things one after the other. -/
def readMany {α : Type} (read : Octets → Option (α × Octets)) :
    (n : Nat) → Octets → Option (List α × Octets)
  | 0, bs => some ([], bs)
  | n + 1, bs => do
    let (a, rest) ← read bs
    let (more, rest) ← readMany read n rest
    return (a :: more, rest)

/-! ## 3. Hexadecimal text -/

/-- The lowercase hexadecimal digit of a number below sixteen. -/
def hexDigit (n : Nat) : Char :=
  if n < 10 then Char.ofNat (48 + n) else Char.ofNat (87 + n)

/-- The value of a hexadecimal digit of either case. -/
def hexValue? (c : Char) : Option Nat :=
  if '0' ≤ c ∧ c ≤ '9' then some (c.toNat - 48)
  else if 'a' ≤ c ∧ c ≤ 'f' then some (c.toNat - 87)
  else if 'A' ≤ c ∧ c ≤ 'F' then some (c.toNat - 55)
  else none

/-- **Lowercase hexadecimal text**, two digits an octet. -/
def toHex (bs : Octets) : String :=
  String.ofList (bs.flatMap fun b => [hexDigit (b.toNat / 16), hexDigit (b.toNat % 16)])

/-- The octets spelled by pairs of hexadecimal digits. -/
def ofHexDigits? : List Char → Option Octets
  | [] => some []
  | [_] => none
  | h :: l :: rest => do
      let high ← hexValue? h
      let low ← hexValue? l
      let bs ← ofHexDigits? rest
      return UInt8.ofNat (high * 16 + low) :: bs

/-- The octets spelled by a hexadecimal text. -/
def ofHex? (s : String) : Option Octets := ofHexDigits? s.toList

/-! ## 4. Text -/

/-- **The UTF-8 form of a text.** -/
def ofText (s : String) : Octets := s.toUTF8.data.toList

/-- The text of which the octets are the UTF-8 form, if there is one. -/
def toText? (bs : Octets) : Option String := String.fromUTF8? ⟨bs.toArray⟩

/-- Pairs of octets as 16-bit units; an odd last octet is a unit of its own. -/
def units16 : Octets → List Nat
  | [] => []
  | [b] => [b.toNat]
  | h :: l :: rest => (h.toNat * 256 + l.toNat) :: units16 rest

/-- Decodes 16-bit units; a surrogate is read only as the first half of a pair. -/
def charsOfUnits16? : List Nat → Option (List Char)
  | [] => some []
  | u :: rest =>
    if u < 0xd800 ∨ 0xe000 ≤ u then (charsOfUnits16? rest).map (Char.ofNat u :: ·)
    else if 0xdc00 ≤ u then none
    else match rest with
      | [] => none
      | v :: rest' =>
        if 0xdc00 ≤ v ∧ v < 0xe000 then
          (charsOfUnits16? rest').map
            (Char.ofNat (0x10000 + (u - 0xd800) * 0x400 + (v - 0xdc00)) :: ·)
        else none

/-- The text of which the octets are the big-endian UTF-16 form, if there is one. -/
def utf16Text? (bs : Octets) : Option String := (charsOfUnits16? (units16 bs)).map String.ofList

end Octets

end RootAuthority
