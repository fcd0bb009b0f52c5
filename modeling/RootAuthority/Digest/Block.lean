import RootAuthority.Octets

/-!
# Message blocks, as every digest of this library reads them

A message is closed by a one bit, filled up with zeros and ended by its own length in bits, so that
it splits into whole blocks; a digest folds its compression function over the blocks. The framing is
the same for every block size.
-/

namespace RootAuthority.Digest

/-- How many zeros stand between the closing octet and a length of `lengthWidth` octets. -/
def zeroCount (block lengthWidth size : Nat) : Nat :=
  (block - (size + 1 + lengthWidth) % block) % block

/-- **The padded message**: the message, the octet `0x80`, zeros, and the length in bits. -/
def pad (block lengthWidth : Nat) (message : Octets) : Octets :=
  message ++ 0x80 ::
    (List.replicate (zeroCount block lengthWidth message.length) 0 ++
      Octets.ofNat lengthWidth (message.length * 8))

/-- The consecutive pieces of `n` octets; a shorter last piece is kept. -/
def pieces (n : Nat) : Nat → Octets → List Octets
  | 0, _ => []
  | k + 1, bs => if bs.isEmpty then [] else bs.take n :: pieces n k (bs.drop n)

/-- The message cut into padded blocks. -/
def blocks (block lengthWidth : Nat) (message : Octets) : List Octets :=
  let padded := pad block lengthWidth message
  pieces block (padded.length / block) padded

/-- The 32-bit words of a block, most significant octet first. -/
def words32 : Octets → List UInt32
  | a :: b :: c :: d :: rest =>
      (a.toUInt32 <<< 24 ||| b.toUInt32 <<< 16 ||| c.toUInt32 <<< 8 ||| d.toUInt32) :: words32 rest
  | _ => []

/-- The 64-bit words of a block, most significant octet first. -/
def words64 : Octets → List UInt64
  | a :: b :: c :: d :: e :: f :: g :: h :: rest =>
      (a.toUInt64 <<< 56 ||| b.toUInt64 <<< 48 ||| c.toUInt64 <<< 40 ||| d.toUInt64 <<< 32
        ||| e.toUInt64 <<< 24 ||| f.toUInt64 <<< 16 ||| g.toUInt64 <<< 8 ||| h.toUInt64)
        :: words64 rest
  | _ => []

/-- Rotation of a 32-bit word to the right. -/
def rotateRight32 (x : UInt32) (n : UInt32) : UInt32 := x >>> n ||| x <<< (32 - n)

/-- Rotation of a 64-bit word to the right. -/
def rotateRight64 (x : UInt64) (n : UInt64) : UInt64 := x >>> n ||| x <<< (64 - n)

end RootAuthority.Digest
