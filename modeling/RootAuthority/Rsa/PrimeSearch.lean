import RootAuthority.Rsa.PrivateKey

/-!
# Looking for primes

The primes of a fresh key have 1024 bits of which the two highest are set, so that their product has
2048. They are looked for upward from a random odd number, by division by small primes and the test of
Miller and Rabin to fixed bases. A prime that is one more than a multiple of the public exponent is
passed over, since the exponent would have no inverse.
-/

namespace RootAuthority.Rsa.PrimeSearch

/-- The bases of the test, which are also the divisors tried before it. -/
def bases : List Nat :=
  [2, 3, 5, 7, 11, 13, 17, 19, 23, 29, 31, 37, 41, 43, 47, 53, 59, 61, 67, 71]

/-- How often two divides a number, up to a limit, and what is left. -/
def splitTwos : (limit n : Nat) → Nat × Nat
  | 0, n => (0, n)
  | limit + 1, n =>
    if n % 2 = 0 then
      let (k, odd) := splitTwos limit (n / 2)
      (k + 1, odd)
    else (0, n)

/-- One of so many successive squares is minus one modulo `n`. -/
def reachesMinusOne (n : Nat) : (squares x : Nat) → Bool
  | 0, _ => false
  | squares + 1, x => x + 1 = n || reachesMinusOne n squares (x * x % n)

/-- The test of Miller and Rabin to one base. -/
def passes (n base : Nat) : Bool :=
  let (k, odd) := splitTwos (Octets.bitLength n) (n - 1)
  let x := Modular.pow n base odd
  x = 1 || reachesMinusOne n k x

/-- The number can be one of the two primes of a key. -/
def isSuitable (n : Nat) : Bool :=
  bases.all (n % · ≠ 0) && n % PrivateKey.freshExponent ≠ 1 && bases.all (passes n)

/-- How many octets a prime has. -/
def primeOctets : Nat := 128

/-- The odd number with the two highest bits set that random octets describe. -/
def startFrom (random : Octets) : Nat :=
  let high := 1 <<< (8 * primeOctets - 2)
  3 * high + Octets.toNat random % high / 2 * 2 + 1

/-- The first suitable number among so many odd ones. -/
def search? : (tries n : Nat) → Option Nat
  | 0, _ => none
  | tries + 1, n => if isSuitable n then some n else search? tries (n + 2)

/-- **Looks for two different primes** from two random starts. -/
def pair? (random1 random2 : Octets) : Option PrimePair := do
  let p ← search? 4096 (startFrom random1)
  let q ← search? 4096 (startFrom random2)
  if p = q ∨ max p q ≥ 1 <<< (8 * primeOctets) then none else return ⟨p, q⟩

end RootAuthority.Rsa.PrimeSearch
