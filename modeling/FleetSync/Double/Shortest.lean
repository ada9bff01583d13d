import FleetSync.Double.Basic

/-!
The text of a double-precision number.

A finite number is written with the fewest decimal digits that name it. Among decimals of that
length the nearest one is taken, and the larger of two that are equally near. The digits stand in
their places, without an exponent, and a whole number has no point. A negative zero keeps its sign.
-/
namespace FleetSync.Double

/-- What a decimal point in a fixed place makes of a mantissa and of a count of digits. Multiples
of `digit` stand for decimals, multiples of `quarter` for quarters of the mantissa's unit. -/
structure Scale where
  digit : Nat
  quarter : Nat

def scale (exponent point : Int) : Scale where
  digit := Nat.pow 10 point.toNat * Nat.pow 2 (2 - exponent).toNat
  quarter := Nat.pow 10 (-point).toNat * Nat.pow 2 (exponent - 2).toNat

/-- Whether a decimal is nearer to the number than to its neighbours. The neighbour below a power
of two is only half as far away. A decimal in the middle goes to the even mantissa. -/
def names (s : Scale) (mantissa : Nat) (exponent : Int) (decimal : Nat) : Bool :=
  let below := if mantissa = Nat.pow 2 52 ∧ minExponent < exponent then 1 else 2
  let low := (4 * mantissa - below) * s.quarter
  let high := (4 * mantissa + 2) * s.quarter
  let d := decimal * s.digit
  if mantissa % 2 = 0 then low ≤ d && d ≤ high else low < d && d < high

/-- The decimal that names the number and ends at a given place, if there is one. -/
def decimalAt? (mantissa : Nat) (exponent point : Int) : Option Nat :=
  let s := scale exponent point
  let exact := 4 * mantissa * s.quarter
  let down := exact / s.digit
  match names s mantissa exponent down, names s mantissa exponent (down + 1) with
  | true, true => some (if exact - down * s.digit < (down + 1) * s.digit - exact then down else down + 1)
  | true, false => some down
  | false, true => some (down + 1)
  | false, false => none

/-- The power of ten of the first digit of a positive number. -/
def leadingPlace (mantissa : Nat) (exponent : Int) : Int :=
  let num := mantissa * Nat.pow 2 exponent.toNat
  let den := Nat.pow 2 (-exponent).toNat
  let place : Int := (Decimal.ofNat num).length - (Decimal.ofNat den).length
  if den * Nat.pow 10 place.toNat ≤ num * Nat.pow 10 (-place).toNat then place else place - 1

/-- The shortest decimal that names a positive number, as digits times a power of ten. Seventeen
digits are always enough. -/
def shortest (mantissa : Nat) (exponent : Int) : Nat × Int :=
  let first := leadingPlace mantissa exponent
  let found := (List.range 17).findSome? fun (n : Nat) =>
    (decimalAt? mantissa exponent (first - n)).map fun d => (d, first - n)
  found.getD (0, 0)

/-- Digits times a power of ten, without an exponent. -/
def positional (digits : Nat) (power : Int) : List Char :=
  let ds := Decimal.ofNat digits
  match power with
  | .ofNat n => ds ++ List.replicate n '0'
  | .negSucc n =>
    let ds := List.replicate (n + 2 - ds.length) '0' ++ ds
    let whole := ds.take (ds.length - (n + 1))
    let fraction := ((ds.drop (ds.length - (n + 1))).reverse.dropWhile (· = '0')).reverse
    if fraction = [] then whole else whole ++ '.' :: fraction

def signed (negative : Bool) (cs : List Char) : List Char := if negative then '-' :: cs else cs

def toText (x : Double) : String := String.ofList <|
  match x with
  | .nan => ['N', 'a', 'N']
  | .infinite negative => signed negative ['i', 'n', 'f']
  | .finite negative m e =>
    signed negative (if m = 0 then ['0'] else positional (shortest m e).1 (shortest m e).2)

end FleetSync.Double
