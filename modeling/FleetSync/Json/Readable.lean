import FleetSync.Double.Basic
import FleetSync.Json.Basic

/-!
Documents that can be read completely.

Where only some fields of a document are wanted, the others need no more than good syntax. A reader
that has to look at every value before it knows which ones it wants asks for more: string literals
that are characters, numbers within the range of a binary double, and a bounded depth.
-/
namespace FleetSync.Json

/-- The nearest number with 53 significant bits, ties going to the even one. -/
def roundTo53 (n : Nat) : Nat :=
  let unit := Nat.pow 2 (n.log2 + 1 - 53)
  Double.roundQuotient n unit * unit

/-- The leading digits of a number that fit 64 bits, and how many digits follow them. -/
def leading64 (n : Nat) : Nat × Nat :=
  if n < UInt64.size then (n, 0)
  else
    let (m, dropped) := leading64 (n / 10)
    (m, dropped + 1)
termination_by n
decreasing_by
  have : 0 < UInt64.size := by decide
  omega

/-- Whether digits times a power of ten are too large for a double. The leading digits and the
power are rounded to doubles, and so is their product. -/
def overflowsDouble (digits : Nat) (exponent : Int) : Bool :=
  let (m, dropped) := leading64 digits
  let e := exponent + dropped
  if m = 0 ∨ e < 0 then false
  else if e > 308 then true
  else roundTo53 (roundTo53 m * roundTo53 (Nat.pow 10 e.toNat)) ≥ Nat.pow 2 1024

/-- Whether a number is in range; a whole number with a sign or beyond 64 bits is a double too. -/
def Number.inRange : Number → Bool
  | .whole _ n => !overflowsDouble n 0
  | .scaled _ n e => !overflowsDouble n e

mutual
/-- Every value can be read, and arrays and objects are nested at most `depth` deep. -/
def readableWithin (depth : Nat) : Json → Bool
  | .number n => n.inRange
  | .str s => s.isSome
  | .arr items =>
    match depth with
    | 0 => false
    | depth + 1 => itemsReadable depth items
  | .obj members =>
    match depth with
    | 0 => false
    | depth + 1 => membersReadable depth members
  | _ => true

def itemsReadable (depth : Nat) : List Json → Bool
  | [] => true
  | j :: rest => readableWithin depth j && itemsReadable depth rest

def membersReadable (depth : Nat) : List (Literal × Json) → Bool
  | [] => true
  | (k, j) :: rest => k.isSome && readableWithin depth j && membersReadable depth rest
end

/-- The greatest depth of a document that is read completely. -/
def maxDepth : Nat := 127

def isReadable (j : Json) : Bool := j.readableWithin maxDepth

end FleetSync.Json
