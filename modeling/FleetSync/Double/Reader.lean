import FleetSync.Double.Basic
import FleetSync.Text.AsciiCase

/-!
Reading double-precision numbers.

A number has at most one sign, then digits with at most one point among, before or behind them, then
at most one exponent. The words `inf`, `infinity` and `nan` are read in any case. Nothing may stand
around the number.
-/
namespace FleetSync.Double

/-- The digits at the front and what follows them. -/
def splitDigits (cs : List Char) : List Char × List Char :=
  (cs.takeWhile Char.isDigit, cs.dropWhile Char.isDigit)

/-- The exponent at the end of a number. -/
def exponent? : List Char → Option Int
  | [] => some 0
  | c :: cs => if c = 'e' ∨ c = 'E' then Decimal.int? cs else none

/-- A number after its sign. -/
def unsigned? (negative : Bool) (cs : List Char) : Option Double :=
  let word := cs.map Char.toLower
  if word = ['i', 'n', 'f'] ∨ word = ['i', 'n', 'f', 'i', 'n', 'i', 't', 'y'] then
    some (.infinite negative)
  else if word = ['n', 'a', 'n'] then some .nan
  else
    let (whole, rest) := splitDigits cs
    let (fraction, rest) :=
      match rest with
      | '.' :: rest => splitDigits rest
      | rest => ([], rest)
    if whole ++ fraction = [] then none
    else do
      let e ← exponent? rest
      return nearest negative (Nat.ofDigitChars 10 (whole ++ fraction) 0) (e - fraction.length)

/-- The number a text names. -/
def ofChars? : List Char → Option Double
  | '-' :: cs => unsigned? true cs
  | '+' :: cs => unsigned? false cs
  | cs => unsigned? false cs

end FleetSync.Double
