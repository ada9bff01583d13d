import FleetSync.Text.Decimal

/-!
JSON documents as they are read and written.

A document keeps what a reader may still have to refuse: the members of an object in their order,
repeated ones included, and string literals whose escapes form no characters. Whether such a thing
is an error depends on who asks for the value, so it is not decided here.
-/
namespace FleetSync

/-- What a string literal says: its characters, or nothing if an escape in it is half of a pair. -/
abbrev Json.Literal := Option String

/-- A number: a whole one with its sign, or one with a fraction or an exponent, as digits times a
power of ten. -/
inductive Json.Number where
  | whole (negative : Bool) (magnitude : Nat)
  | scaled (negative : Bool) (digits : Nat) (exponent : Int)
  deriving DecidableEq

inductive Json where
  | null
  | bool (b : Bool)
  | number (n : Json.Number)
  | str (s : Json.Literal)
  | arr (items : List Json)
  | obj (members : List (Json.Literal × Json))

namespace Json

instance : Inhabited Json := ⟨.null⟩

def ofString (s : String) : Json := .str (some s)

def ofNat (n : Nat) : Json := .number (.whole false n)

def ofInt (i : Int) : Json := .number (.whole (i < 0) i.natAbs)

/-- An object with the given members in order. -/
def object (members : List (String × Json)) : Json := .obj (members.map fun m => (some m.1, m.2))

/-- The whole number a document is; minus zero is not one. -/
def int? : Json → Option Int
  | .number (.whole false n) => some n
  | .number (.whole true (n + 1)) => some (.negSucc n)
  | _ => none

def nat? : Json → Option Nat
  | .number (.whole false n) => some n
  | _ => none

@[simp] theorem nat?_ofNat (n : Nat) : (ofNat n).nat? = some n := rfl

@[simp] theorem int?_ofInt (i : Int) : (ofInt i).int? = some i := by
  cases i with
  | ofNat n =>
    have h : ¬ ((n : Int) < 0) := by omega
    simp [ofInt, int?, h]
  | negSucc n => simp [ofInt, int?, Int.negSucc_lt_zero]

end Json
end FleetSync
