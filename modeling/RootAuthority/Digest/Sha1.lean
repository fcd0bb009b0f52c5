import RootAuthority.Digest.Block

/-!
# SHA-1

Eighty rounds over a five-word state. The schedule is a window of the sixteen words that the next
rounds will use: each round takes the first and appends the word that the recurrence gives, so no
index ever leaves the window. A digest has twenty octets (`length_sha1`).
-/

namespace RootAuthority.Digest

/-- The five words that SHA-1 carries from block to block. -/
structure Sha1State where
  a : UInt32
  b : UInt32
  c : UInt32
  d : UInt32
  e : UInt32

namespace Sha1State

/-- The state before the first block. -/
def start : Sha1State := ⟨0x67452301, 0xefcdab89, 0x98badcfe, 0x10325476, 0xc3d2e1f0⟩

/-- The mixing function and the constant of round `t`. -/
def mix (t : Nat) (b c d : UInt32) : UInt32 × UInt32 :=
  if t < 20 then (b &&& c ||| ~~~b &&& d, 0x5a827999)
  else if t < 40 then (b ^^^ c ^^^ d, 0x6ed9eba1)
  else if t < 60 then (b &&& c ||| b &&& d ||| c &&& d, 0x8f1bbcdc)
  else (b ^^^ c ^^^ d, 0xca62c1d6)

/-- One round with the schedule word `w`. -/
def round (t : Nat) (s : Sha1State) (w : UInt32) : Sha1State :=
  let (f, k) := mix t s.b s.c s.d
  ⟨rotateRight32 s.a 27 + f + s.e + k + w, s.a, rotateRight32 s.b 2, s.c, s.d⟩

/-- The window after its first word was used. -/
def slide (window : List UInt32) : List UInt32 :=
  window.tail ++
    [rotateRight32 (window.getD 13 0 ^^^ window.getD 8 0 ^^^ window.getD 2 0 ^^^ window.getD 0 0) 31]

/-- `n` rounds from round `t` on. -/
def rounds : (n t : Nat) → List UInt32 → Sha1State → Sha1State
  | 0, _, _, s => s
  | n + 1, t, window, s => rounds n (t + 1) (slide window) (round t s (window.headD 0))

/-- The state after one more block. -/
def absorb (s : Sha1State) (block : Octets) : Sha1State :=
  let r := rounds 80 0 (words32 block) s
  ⟨s.a + r.a, s.b + r.b, s.c + r.c, s.d + r.d, s.e + r.e⟩

end Sha1State

/-- **The SHA-1 digest** of a message. -/
def sha1 (message : Octets) : Octets :=
  let s := (blocks 64 8 message).foldl Sha1State.absorb Sha1State.start
  [s.a, s.b, s.c, s.d, s.e].flatMap fun w => Octets.ofNat 4 w.toNat

@[simp] theorem length_sha1 (message : Octets) : (sha1 message).length = 20 := by
  simp [sha1]

end RootAuthority.Digest
