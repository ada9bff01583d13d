import FleetSync.Text.Decimal

/-!
Double-precision numbers.

A finite number is a sign and a mantissa below `2 ^ 53` times a power of two not below `2 ^ -1074`.
A decimal names the number that is nearest to it; of two that are equally near, the one with the
even mantissa. What lies half a step or more beyond the largest number is infinite.
-/
namespace FleetSync

inductive Double where
  | nan
  | infinite (negative : Bool)
  | finite (negative : Bool) (mantissa : Nat) (exponent : Int)
  deriving DecidableEq

namespace Double

/-- The exponents of the smallest and of the largest numbers. -/
def minExponent : Int := -1074
def maxExponent : Int := 971

def zero (negative : Bool) : Double := .finite negative 0 minExponent

def isZero : Double → Bool
  | .finite _ m _ => m = 0
  | _ => false

/-- A quotient rounded to the nearest whole number, an exact half to the even one. -/
def roundQuotient (num den : Nat) : Nat :=
  let rest := 2 * (num % den)
  if den < rest ∨ (rest = den ∧ num / den % 2 = 1) then num / den + 1 else num / den

/-- The quotient as a multiple of a power of two, again as a quotient. -/
def inUnits (num den : Nat) (exponent : Int) : Nat × Nat :=
  (num * Nat.pow 2 (-exponent).toNat, den * Nat.pow 2 exponent.toNat)

/-- The exponent at which a positive quotient has a whole part of 53 bits, or the smallest one. -/
def exponentFor (num den : Nat) : Int :=
  let low := (num.log2 : Int) - den.log2 - 53
  let (n, d) := inUnits num den low
  max minExponent (if n / d < Nat.pow 2 53 then low else low + 1)

/-- The number nearest to a positive quotient. -/
def nearestQuotient (negative : Bool) (num den : Nat) : Double :=
  let exponent := exponentFor num den
  let (n, d) := inUnits num den exponent
  let m := roundQuotient n d
  let (m, exponent) := if m = Nat.pow 2 53 then (Nat.pow 2 52, exponent + 1) else (m, exponent)
  if maxExponent < exponent then .infinite negative else .finite negative m exponent

/-- The number nearest to digits times a power of ten. Magnitudes of `10 ^ 310` and above, and
below `10 ^ -330`, are decided by the count of digits. -/
def nearest (negative : Bool) (digits : Nat) (exponent : Int) : Double :=
  let size := (Decimal.ofNat digits).length + exponent
  if digits = 0 ∨ size < -330 then zero negative
  else if 310 < size then .infinite negative
  else nearestQuotient negative (digits * Nat.pow 10 exponent.toNat) (Nat.pow 10 (-exponent).toNat)

end Double
end FleetSync
