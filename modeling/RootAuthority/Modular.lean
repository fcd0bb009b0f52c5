/-!
# Modular powers and inverses

`Modular.pow m b e` is `b ^ e % m` by repeated squaring. `Modular.inverse a m` is the inverse of `a`
modulo `m` by the extended Euclidean algorithm, where `a` and `m` have no common factor.
-/

namespace RootAuthority.Modular

/-- The power `b ^ e` modulo `m`, by repeated squaring. -/
def pow (m b e : Nat) : Nat :=
  if e = 0 then 1 % m
  else
    let half := pow m (b * b % m) (e / 2)
    if e % 2 = 1 then b * half % m else half
termination_by e

/-- The Euclidean algorithm with the coefficient of the first number: from remainders `r` and `r'`
    with coefficients `s` and `s'` to the common divisor and its coefficient. -/
def euclid (r r' : Nat) (s s' : Int) : Nat × Int :=
  if r' = 0 then (r, s) else euclid r' (r % r') s' (s - (r / r' : Nat) * s')
termination_by r'
decreasing_by exact Nat.mod_lt _ (by omega)

/-- The inverse of `a` modulo `m`. -/
def inverse (a m : Nat) : Nat := ((euclid (a % m) m 1 0).2 % (m : Int)).toNat

end RootAuthority.Modular
